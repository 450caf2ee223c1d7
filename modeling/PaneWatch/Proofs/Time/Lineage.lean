import Mathlib.Logic.Relation
import PaneWatch.Proofs.Time.Millis
import PaneWatch.Time.Rack

/-! Where the clocks on a rack come from, told by the operations alone: each clock is made new,
or is a copy or a frozen view of one before it. Clocks that lead back to one another share a
counter, and no others do. -/
namespace PaneWatch

def Face.source : Face → Nat ⊕ Span
  | .fake family _ => .inl family
  | .system origin => .inr origin

namespace Rack

inductive Birth where
  | made (kind : Kind) (time : Span)
  | copied (parent : Nat)
  | frozen (parent : Nat)
  deriving DecidableEq, Repr

def Kind.start? : Kind → Option UInt64
  | .fake start => some start
  | .fakeHandle => some 0
  | .system => none
  | .systemHandle => none

def Op.birth? (r : Rack) : Op → Option Birth
  | .make kind => some (.made kind r.time)
  | .clone i => (r.mounted? i).map fun _ => .copied (i % r.clocks.length)
  | .handle i => (r.mounted? i).map fun _ => .copied (i % r.clocks.length)
  | .freeze i => (r.fakeFace? i).map fun _ => .frozen (i % r.clocks.length)
  | _ => none

def Op.given? (r : Rack) : Op → Option (Nat × Nat)
  | .sleep i d =>
    (r.fakeFace? i).bind fun (_,auto) => if auto then some (i % r.clocks.length,d.millis) else none
  | .advance i d => (r.fakeFace? i).map fun _ => (i % r.clocks.length,d.millis)
  | .advanceMillis i ms => (r.fakeFace? i).map fun _ => (i % r.clocks.length,ms.toNat)
  | _ => none

def Op.on? : Op → Option Nat
  | .sleep i _ => some i
  | .advance i _ => some i
  | .advanceMillis i _ => some i
  | _ => none

def Op.passes (r : Rack) : Op → Prop
  | .tick _ => True
  | .sleep i _ => r.fakeFace? i = none
  | _ => False

def after (r : Rack) (ops : List Op) : Rack := ((r.run ops).getLast?.map Prod.snd).getD r

theorem afterNil (r : Rack) : r.after [] = r := rfl

theorem afterCons (r : Rack) (op : Op) (ops : List Op) :
    r.after (op::ops) = (r.step op).2.after ops := by
  rw [after,run,List.getLast?_cons]
  unfold after
  cases ((r.step op).2.run ops).getLast? <;> rfl

theorem afterAppend (r : Rack) (ops more : List Op) :
    r.after (ops ++ more) = (r.after ops).after more := by
  induction ops generalizing r with
  | nil => rfl
  | cons op ops ih => rw [List.cons_append,afterCons,afterCons,ih]

def births (r : Rack) : List Op → List Birth
  | [] => []
  | op::ops => (op.birth? r).toList ++ births (r.step op).2 ops

theorem birthsAppend (r : Rack) (ops more : List Op) :
    r.births (ops ++ more) = r.births ops ++ (r.after ops).births more := by
  induction ops generalizing r with
  | nil => rfl
  | cons op ops ih => rw [List.cons_append,births,births,ih,afterCons,List.append_assoc]

def face? (r : Rack) (c : Nat) : Option Face := r.clocks[c]?.map Mounted.face

theorem faceBound {r : Rack} {c : Nat} {face : Face} (found : r.face? c = some face) :
    c < r.clocks.length := by
  obtain ⟨m,at_,_⟩ := Option.map_eq_some_iff.mp found
  exact (List.getElem?_eq_some_iff.mp at_).1

theorem fakeFound {r : Rack} {i family : Nat} {auto : Bool}
    (found : r.fakeFace? i = some (family,auto)) :
    r.face? (i % r.clocks.length) = some (.fake family auto) := by
  unfold fakeFace? mounted? at found
  unfold face?
  split at found
  · rename_i face
    cases found
    exact face
  · cases found

/- All that one operation can do, with the birth it counts as and the time it gives. -/
inductive Change (r : Rack) (op : Op) : Option Birth → Option (Nat × Nat) → Rack → Prop where
  | idle : Change r op none none r
  | founded {kind : Kind} {start : UInt64} (isFake : kind.start? = some start) (handle : Bool) :
      Change r op (some (.made kind r.time)) none (r.newFamily start handle)
  | started {kind : Kind} (isSystem : kind.start? = none) (handle : Bool) :
      Change r op (some (.made kind r.time)) none (r.mount ⟨.system r.time,handle⟩)
  | copied {x : Nat} {face : Face} (found : r.face? x = some face) (handle : Bool) :
      Change r op (some (.copied x)) none (r.mount ⟨face,handle⟩)
  | frozen {x family : Nat} {auto : Bool} (found : r.face? x = some (.fake family auto)) :
      Change r op (some (.frozen x)) none (r.mount ⟨.fake family false,false⟩)
  | given {i family : Nat} {auto : Bool} (on : op.on? = some i)
      (found : r.fakeFace? i = some (family,auto)) (k : Nat) :
      Change r op none (some (i % r.clocks.length,k))
        (r.setCounter family (r.counter family + UInt64.ofNat k))
  | passed {time : Span} (passes : op.passes r) (later : r.time ≤ time) :
      Change r op none none { r with time := time }

theorem stepChange (r : Rack) (op : Op) :
    Change r op (op.birth? r) (op.given? r) (r.step op).2 := by
  have mounted (i : Nat) (handle : Mounted → Bool) : Change r op
      ((r.mounted? i).map fun _ => .copied (i % r.clocks.length)) none
      ((r.mounted? i).elim r fun m => r.mount { m with handle := handle m }) := by
    rcases found : r.mounted? i with _ | m
    · exact .idle
    · exact .copied (congrArg (Option.map Mounted.face) found) _
  have moved (i k : Nat) (on : op.on? = some i) : Change r op none
      ((r.fakeFace? i).map fun _ => (i % r.clocks.length,k))
      (r.moveFake i fun count => count + UInt64.ofNat k).2 := by
    unfold moveFake
    rcases found : r.fakeFace? i with _ | ⟨family,auto⟩
    · exact .idle
    · exact .given on found k
  cases op with
  | make kind =>
    cases kind with
    | fake start => exact .founded rfl false
    | fakeHandle => exact .founded rfl true
    | system => exact .started rfl false
    | systemHandle => exact .started rfl true
  | clone i => exact mounted i Mounted.handle
  | handle i => exact mounted i fun _ => true
  | freeze i =>
    rcases found : r.fakeFace? i with _ | ⟨family,auto⟩
    · simpa [step,Op.birth?,Op.given?,found] using Change.idle
    · simpa [step,Op.birth?,Op.given?,found] using Change.frozen (fakeFound found)
  | sleep i d =>
    rcases found : r.mounted? i with _ | ⟨⟨family,auto⟩ | origin,handle⟩
    · simpa [step,Op.birth?,Op.given?,fakeFace?,found] using Change.idle
    · have fake : r.fakeFace? i = some (family,auto) := by simp [fakeFace?,found]
      cases auto with
      | false => simpa [step,sleepOn,Op.birth?,Op.given?,fake,found] using Change.idle
      | true =>
        simpa [step,sleepOn,Millis.advance,Op.birth?,Op.given?,fake,found] using
          Change.given rfl fake d.millis
    · have system : r.fakeFace? i = none := by simp [fakeFace?,found]
      have passes : (Op.sleep i d).passes r := system
      simpa [step,sleepOn,Op.birth?,Op.given?,system,found] using
        Change.passed passes (SystemClock.timerWakes.notBefore r.time d)
  | advance i d => exact moved i d.millis rfl
  | advanceMillis i ms =>
    have given := moved i ms.toNat rfl
    rw [UInt64.ofNat_toNat] at given
    exact given
  | tick d => exact .passed trivial (Nat.le_add_right _ _)
  | isFake i =>
    have same : (r.step (.isFake i)).2 = r := by
      unfold step
      dsimp only
      split <;> rfl
    rw [same]
    exact .idle
  | _ => exact .idle

def Derives (bs : List Birth) (a b : Nat) : Prop :=
  bs[b]? = some (.copied a) ∨ bs[b]? = some (.frozen a)

/- One comes from the other, or both from a third, through any number of steps. -/
def Related (bs : List Birth) : Nat → Nat → Prop := Relation.EqvGen (Derives bs)

theorem bornKept {bs : List Birth} {c : Nat} {old : Birth} (at_ : bs[c]? = some old)
    (birth : Birth) : (bs ++ [birth])[c]? = some old := by
  rw [List.getElem?_append_left (List.getElem?_eq_some_iff.mp at_).1,at_]

theorem relatedGrows {bs : List Birth} {a b : Nat} (related : Related bs a b) (birth : Birth) :
    Related (bs ++ [birth]) a b := by
  refine Relation.EqvGen.mono (fun a b derives => ?_) a b related
  exact derives.imp (bornKept · birth) (bornKept · birth)

theorem faceMounted (r : Rack) (m : Mounted) (c : Nat) :
    (r.mount m).face? c = if c = r.clocks.length then some m.face else r.face? c := by
  unfold face? mount
  dsimp only
  grind

def Fits (r : Rack) : Birth → Face → Prop
  | .made kind _,.fake _ auto => kind.start? ≠ none ∧ auto = true
  | .made kind time,.system origin => kind.start? = none ∧ origin = time
  | .copied parent,face => r.face? parent = some face
  | .frozen parent,.fake family auto =>
    auto = false ∧ ∃ was, r.face? parent = some (.fake family was)
  | .frozen _,.system _ => False

/- A clock leads back to one that was made, with the same counter or origin. -/
def Rooted (bs : List Birth) (r : Rack) (c : Nat) (face : Face) : Prop :=
  ∃ (root : Nat) (kind : Kind) (time : Span) (first : Face), bs[root]? = some (.made kind time) ∧
    r.face? root = some first ∧ first.source = face.source ∧ Related bs root c

structure Lineage (bs : List Birth) (r : Rack) : Prop where
  lines : bs.length = r.clocks.length
  fits : ∀ (c : Nat) birth face, bs[c]? = some birth → r.face? c = some face → Fits r birth face
  rooted : ∀ c face, r.face? c = some face → Rooted bs r c face
  single : ∀ (a b : Nat) kind kind' time time' family x y, bs[a]? = some (.made kind time) →
    bs[b]? = some (.made kind' time') → r.face? a = some (.fake family x) →
    r.face? b = some (.fake family y) → a = b
  known : ∀ c family auto, r.face? c = some (.fake family auto) → family < r.counters.length
  earlier : ∀ c origin, r.face? c = some (.system origin) → origin ≤ r.time

theorem fitsParent {r : Rack} {birth : Birth} {face : Face} {parent : Nat}
    (fits : Fits r birth face) (derived : birth = .copied parent ∨ birth = .frozen parent) :
    ∃ was, r.face? parent = some was ∧ was.source = face.source := by
  rcases derived with rfl | rfl
  · exact ⟨face,fits,rfl⟩
  · cases face with
    | fake family auto =>
      obtain ⟨_,was,found⟩ := fits
      exact ⟨_,found,rfl⟩
    | system origin => cases fits

theorem fitsGrows {r u : Rack} {birth : Birth} {face : Face} (fits : Fits r birth face)
    (kept : ∀ c old, r.face? c = some old → u.face? c = some old) : Fits u birth face := by
  cases birth with
  | made kind time => cases face <;> exact fits
  | copied parent => exact kept _ _ fits
  | frozen parent =>
    cases face with
    | fake family auto => exact ⟨fits.1,fits.2.imp fun was found => kept _ _ found⟩
    | system origin => exact fits

theorem rootedGrows {bs : List Birth} {r u : Rack} {c : Nat} {face : Face}
    (rooted : Rooted bs r c face) (kept : ∀ c old, r.face? c = some old → u.face? c = some old)
    (birth : Birth) : Rooted (bs ++ [birth]) u c face := by
  obtain ⟨root,kind,time,first,made,top,source,related⟩ := rooted
  exact ⟨root,kind,time,first,bornKept made birth,kept _ _ top,source,relatedGrows related birth⟩

theorem rootedChild {bs : List Birth} {r : Rack} {parent c : Nat} {was face : Face}
    (rooted : Rooted bs r parent was) (same : was.source = face.source)
    (derives : Derives bs parent c) : Rooted bs r c face := by
  obtain ⟨root,kind,time,first,made,top,source,related⟩ := rooted
  exact ⟨root,kind,time,first,made,top,source.trans same,.trans _ _ _ related (.rel _ _ derives)⟩

theorem lineageGrows {bs : List Birth} {r u : Rack} {birth : Birth} {face : Face}
    (lineage : Lineage bs r) (lines : u.clocks.length = r.clocks.length + 1)
    (faces : ∀ c, u.face? c = if c = r.clocks.length then some face else r.face? c)
    (counters : r.counters.length ≤ u.counters.length) (time : u.time = r.time)
    (fits : Fits r birth face)
    (known : ∀ family auto, face = .fake family auto → family < u.counters.length)
    (fresh : ∀ kind time family auto, birth = .made kind time → face = .fake family auto →
      family = r.counters.length)
    (earlier : ∀ origin, face = .system origin → origin ≤ r.time) :
    Lineage (bs ++ [birth]) u := by
  have births (c : Nat) :
      (bs ++ [birth])[c]? = if c = r.clocks.length then some birth else bs[c]? := by
    have := lineage.lines
    grind
  have kept : ∀ c old, r.face? c = some old → u.face? c = some old := by
    intro c old found
    rw [faces,if_neg (Nat.ne_of_lt (faceBound found)),found]
  refine ⟨by simp [lines,lineage.lines],?_,?_,?_,?_,?_⟩
  · intro c born shown at_ found
    rw [births] at at_
    rw [faces] at found
    by_cases new : c = r.clocks.length
    · simp only [new,↓reduceIte,Option.some.injEq] at at_ found
      subst at_ found
      exact fitsGrows fits kept
    · simp only [new,↓reduceIte] at at_ found
      exact fitsGrows (lineage.fits _ _ _ at_ found) kept
  · intro c shown found
    rw [faces] at found
    by_cases new : c = r.clocks.length
    · simp only [new,↓reduceIte,Option.some.injEq] at found
      subst new found
      have birthHere := births r.clocks.length
      rw [if_pos rfl] at birthHere
      cases birth with
      | made kind time =>
        refine ⟨_,kind,time,face,birthHere,?_,rfl,.refl _⟩
        rw [faces,if_pos rfl]
      | copied parent =>
        obtain ⟨was,top,source⟩ := fitsParent fits (.inl rfl)
        exact rootedChild (rootedGrows (lineage.rooted _ _ top) kept _) source (.inl birthHere)
      | frozen parent =>
        obtain ⟨was,top,source⟩ := fitsParent fits (.inr rfl)
        exact rootedChild (rootedGrows (lineage.rooted _ _ top) kept _) source (.inr birthHere)
    · simp only [new,↓reduceIte] at found
      exact rootedGrows (lineage.rooted c shown found) kept birth
  · intro a b kind kind' time time' family x y madeA madeB faceA faceB
    rw [births] at madeA madeB
    rw [faces] at faceA faceB
    have known := lineage.known
    have single := lineage.single
    grind
  · intro c family auto found
    rw [faces] at found
    have known := lineage.known
    grind
  · intro c origin found
    rw [faces] at found
    have earlier := lineage.earlier
    grind

theorem lineageSame {bs : List Birth} {r u : Rack} (lineage : Lineage bs r)
    (clocks : u.clocks = r.clocks) (counters : u.counters.length = r.counters.length)
    (time : r.time ≤ u.time) : Lineage bs u := by
  have faces (c : Nat) : u.face? c = r.face? c := by rw [face?,face?,clocks]
  refine ⟨by rw [clocks,lineage.lines],?_,?_,?_,?_,?_⟩
  · intro c birth face born found
    rw [faces] at found
    exact fitsGrows (lineage.fits c birth face born found) fun c old found => by rw [faces,found]
  · simpa only [Rooted,faces] using lineage.rooted
  · simpa only [faces] using lineage.single
  · simpa only [faces,counters] using lineage.known
  · intro c origin found
    rw [faces] at found
    exact Nat.le_trans (lineage.earlier c origin found) time

theorem lineageStep {bs : List Birth} {r u : Rack} {op : Op} {birth : Option Birth}
    {given : Option (Nat × Nat)} (lineage : Lineage bs r) (change : Change r op birth given u) :
    Lineage (bs ++ birth.toList) u := by
  cases change with
  | idle => simpa using lineage
  | @founded kind start isFake handle =>
    have faces := faceMounted r ⟨.fake r.counters.length true,handle⟩
    refine lineageGrows lineage (by simp [newFamily]) faces (by simp [newFamily]) rfl
      ⟨by simp [isFake],rfl⟩ ?_ ?_ (fun _ => nofun)
    · rintro family auto ⟨⟩
      simp [newFamily]
    · rintro kind time family auto _ ⟨⟩
      rfl
  | started isSystem handle =>
    refine lineageGrows lineage (by simp [mount]) (faceMounted r _) (Nat.le_refl _) rfl
      ⟨isSystem,rfl⟩ (fun _ _ => nofun) (fun _ _ _ _ _ => nofun) ?_
    rintro origin ⟨⟩
    exact Nat.le_refl _
  | @copied x face found handle =>
    refine lineageGrows lineage (by simp [mount]) (faceMounted r _) (Nat.le_refl _) rfl found
      ?_ (fun _ _ _ _ => nofun) ?_
    · rintro family auto rfl
      exact lineage.known x family auto found
    · rintro origin rfl
      exact lineage.earlier x origin found
  | @frozen x family auto found =>
    refine lineageGrows lineage (by simp [mount]) (faceMounted r _) (Nat.le_refl _) rfl
      ⟨rfl,auto,found⟩ ?_ (fun _ _ _ _ => nofun) (fun _ => nofun)
    rintro family auto ⟨⟩
    exact lineage.known x _ _ found
  | given =>
    rw [Option.toList_none,List.append_nil]
    exact lineageSame lineage rfl (by simp [setCounter]) (Nat.le_refl _)
  | passed _ later =>
    rw [Option.toList_none,List.append_nil]
    exact lineageSame lineage rfl rfl later

theorem lineageRun {bs : List Birth} {r : Rack} (lineage : Lineage bs r) (ops : List Op) :
    Lineage (bs ++ r.births ops) (r.after ops) := by
  induction ops generalizing bs r with
  | nil => simpa [births,afterNil] using lineage
  | cons op ops ih =>
    rw [births,afterCons,← List.append_assoc]
    exact ih (lineageStep lineage (r.stepChange op))

theorem lineageEmpty : Lineage [] empty := by
  constructor <;> simp [empty,face?]

theorem relatedSource {bs : List Birth} {r : Rack} (lineage : Lineage bs r) {a b : Nat}
    (related : Related bs a b) :
    (r.face? a).map Face.source = (r.face? b).map Face.source := by
  induction related with
  | rel a b derives =>
    have born : ∃ birth, bs[b]? = some birth ∧ (birth = .copied a ∨ birth = .frozen a) :=
      derives.elim (fun at_ => ⟨_,at_,.inl rfl⟩) fun at_ => ⟨_,at_,.inr rfl⟩
    obtain ⟨birth,at_,derived⟩ := born
    have bound := (List.getElem?_eq_some_iff.mp at_).1
    rw [lineage.lines] at bound
    have found : r.face? b = some r.clocks[b].face := by simp [face?,bound]
    obtain ⟨was,top,source⟩ := fitsParent (lineage.fits b birth _ at_ found) derived
    rw [top,found,Option.map_some,Option.map_some,source]
  | refl a => rfl
  | symm a b _ ih => exact ih.symm
  | trans a b c _ _ first second => exact first.trans second

end Rack
end PaneWatch
