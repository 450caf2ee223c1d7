import Mathlib.Algebra.Group.Nat.Defs
import Mathlib.Data.List.Induction
import PaneWatch.Proofs.Time.Lineage

/-! The reading of every clock on a rack, by the operations that led to it: a fake clock counts
what was given to the clocks it is related to, a system clock the virtual time since it was made. -/
namespace PaneWatch.Rack

open Classical in
noncomputable def share (member : Nat → Prop) : Option (Nat × Nat) → Nat
  | some (x,k) => if member x then k else 0
  | none => 0

noncomputable def moved (member : Nat → Prop) (r : Rack) : List Op → Nat
  | [] => 0
  | op::ops => share member (op.given? r) + moved member (r.step op).2 ops

theorem movedAppend (member : Nat → Prop) (r : Rack) (ops more : List Op) :
    moved member r (ops ++ more) = moved member r ops + moved member (r.after ops) more := by
  induction ops generalizing r with
  | nil => simp [moved,afterNil]
  | cons op ops ih => rw [List.cons_append,moved,moved,ih,afterCons,Nat.add_assoc]

theorem clocksChange {r u : Rack} {op : Op} {birth : Option Birth} {given : Option (Nat × Nat)}
    (change : Change r op birth given u) : r.clocks <+: u.clocks := by
  cases change with
  | idle => exact List.prefix_rfl
  | given => exact List.prefix_rfl
  | passed => exact List.prefix_rfl
  | _ => exact List.prefix_append _ _

theorem clocksRun (r : Rack) (ops : List Op) : r.clocks <+: (r.after ops).clocks := by
  induction ops generalizing r with
  | nil => exact List.prefix_rfl
  | cons op ops ih =>
    rw [afterCons]
    exact (clocksChange (r.stepChange op)).trans (ih _)

theorem givenFace {r u : Rack} {op : Op} {birth : Option Birth} {x k : Nat}
    (change : Change r op birth (some (x,k)) u) : ∃ i family auto, op.on? = some i ∧
      r.fakeFace? i = some (family,auto) ∧ x = i % r.clocks.length ∧
      r.face? x = some (.fake family auto) := by
  cases change with
  | given on found k => exact ⟨_,_,_,on,found,rfl,fakeFound found⟩

theorem shareLocal {p q : Nat → Prop} {r u : Rack} {op : Op} {birth : Option Birth}
    {given : Option (Nat × Nat)} (change : Change r op birth given u)
    (same : ∀ x < r.clocks.length, p x ↔ q x) : share p given = share q given := by
  rcases given with _ | ⟨x,k⟩
  · rfl
  · obtain ⟨_,_,_,_,_,_,found⟩ := givenFace change
    have alike : p x = q x := propext (same x (faceBound found))
    by_cases held : q x <;> simp [share,alike,held]

theorem movedLocal {p q : Nat → Prop} {r : Rack} {ops : List Op}
    (same : ∀ x < (r.after ops).clocks.length, p x ↔ q x) : moved p r ops = moved q r ops := by
  induction ops generalizing r with
  | nil => rfl
  | cons op ops ih =>
    rw [afterCons] at same
    have change := r.stepChange op
    have grown := ((clocksChange change).trans (clocksRun _ ops)).length_le
    rw [moved,moved,ih same,shareLocal change fun x old => same x (Nat.lt_of_lt_of_le old grown)]

theorem movedNone (r : Rack) (ops : List Op) : moved (fun _ => False) r ops = 0 := by
  induction ops generalizing r with
  | nil => rfl
  | cons op ops ih =>
    rw [moved,ih]
    rcases op.given? r with _ | ⟨x,k⟩ <;> simp [share]

def Holds (r : Rack) (family x : Nat) : Prop := ∃ auto, r.face? x = some (.fake family auto)

/- Each counter stands at its start and what was given to the clocks that hold it. -/
def Balanced (bs : List Birth) (r : Rack) (total : (Nat → Prop) → Nat) : Prop :=
  ∀ (root : Nat) kind time start family auto, bs[root]? = some (.made kind time) →
    kind.start? = some start → r.face? root = some (.fake family auto) →
    r.counter family = start + UInt64.ofNat (total (r.Holds family))

theorem faceKept {r u : Rack} (grown : r.clocks <+: u.clocks) {c : Nat}
    (old : c < r.clocks.length) : u.face? c = r.face? c := by
  obtain ⟨more,grown⟩ := grown
  rw [face?,face?,← grown,List.getElem?_append_left old]

theorem holdsKept {r u : Rack} (grown : r.clocks <+: u.clocks) {family x : Nat}
    (old : x < r.clocks.length) : u.Holds family x ↔ r.Holds family x := by
  rw [Holds,Holds,faceKept grown old]

theorem counterChange {r u : Rack} {op : Op} {birth : Option Birth} {given : Option (Nat × Nat)}
    (change : Change r op birth given u) {family : Nat} (known : family < r.counters.length) :
    u.counter family = r.counter family + UInt64.ofNat (share (r.Holds family) given) := by
  cases change with
  | founded => simp [counter,newFamily,share,List.getElem?_append_left known]
  | @given i other auto on found k =>
    have found := fakeFound found
    by_cases same : other = family
    · subst same
      have held : r.Holds other (i % r.clocks.length) := ⟨auto,found⟩
      simp [counter,setCounter,share,held,known]
    · have free : ¬ r.Holds family (i % r.clocks.length) := by
        rintro ⟨auto',held⟩
        rw [found] at held
        cases held
        exact same rfl
      simp [counter,setCounter,share,free,same]
  | _ => simp [counter,mount,share]

theorem bornLast {bs : List Birth} {birth : Option Birth} {root : Nat} {born : Birth}
    (at_ : (bs ++ birth.toList)[root]? = some born) (beyond : bs.length ≤ root) :
    birth = some born ∧ root = bs.length := by
  rw [List.getElem?_append_right beyond] at at_
  cases birth with
  | none => simp at at_
  | some birth =>
    obtain ⟨here,same⟩ := List.getElem?_eq_some_iff.mp at_
    simp only [Option.toList_some,List.length_singleton] at here
    simp_all
    omega

theorem balanceStep {bs : List Birth} {r u : Rack} {op : Op} {birth : Option Birth}
    {given : Option (Nat × Nat)} {total : (Nat → Prop) → Nat} (lineage : Lineage bs r)
    (change : Change r op birth given u) (balanced : Balanced bs r total)
    (atHand : ∀ p q : Nat → Prop, (∀ x < r.clocks.length, p x ↔ q x) → total p = total q)
    (nothing : total (fun _ => False) = 0) :
    Balanced (bs ++ birth.toList) u fun member => total member + share member given := by
  intro root kind time start family auto made isFake found
  have grown := clocksChange change
  by_cases old : root < r.clocks.length
  · rw [List.getElem?_append_left (lineage.lines ▸ old)] at made
    rw [faceKept grown old] at found
    have held : ∀ x < r.clocks.length, u.Holds family x ↔ r.Holds family x :=
      fun x place => holdsKept grown place
    dsimp only
    rw [counterChange change (lineage.known root family auto found),atHand _ _ held,
      shareLocal change held,balanced root kind time start family auto made isFake found,
      UInt64.ofNat_add,UInt64.add_assoc]
  · have born := bornLast made (lineage.lines ▸ Nat.le_of_not_lt old)
    rw [lineage.lines] at born
    obtain ⟨rfl,rfl⟩ := born
    cases change with
    | @founded _ first isFirst handle =>
      have face := faceMounted r ⟨.fake r.counters.length true,handle⟩ r.clocks.length
      rw [if_pos rfl] at face
      obtain ⟨rfl,rfl⟩ : family = r.counters.length ∧ auto = true := by
        have same := found.symm.trans face
        simpa using same
      have free : ∀ x < r.clocks.length,
          (newFamily r first handle).Holds r.counters.length x ↔ False := by
        refine fun x place => ⟨fun held => ?_,False.elim⟩
        obtain ⟨auto,held⟩ := (holdsKept grown place).mp held
        exact Nat.lt_irrefl _ (lineage.known x _ auto held)
      dsimp only
      rw [atHand _ _ free,nothing]
      cases isFirst.symm.trans isFake
      simp [counter,newFamily,share]
    | started isSystem handle =>
      rw [isSystem] at isFake
      cases isFake

theorem lineageOf (ops : List Op) : Lineage (births empty ops) (after empty ops) :=
  lineageRun lineageEmpty ops

theorem balanceRun (ops : List Op) :
    Balanced (births empty ops) (after empty ops) fun member => moved member empty ops := by
  induction ops using List.reverseRecOn with
  | nil =>
    intro root kind time start family auto made
    simp [births] at made
  | append_singleton ops op ih =>
    have last := balanceStep (lineageOf ops) ((after empty ops).stepChange op) ih
      (fun _ _ same => movedLocal same) (movedNone _ ops)
    simpa only [birthsAppend,afterAppend,afterCons,afterNil,movedAppend,births,moved,
      List.append_nil,Nat.add_zero] using last

theorem relatedHolds {bs : List Birth} {r : Rack} (lineage : Lineage bs r) {c family : Nat}
    {auto : Bool} (found : r.face? c = some (.fake family auto)) (x : Nat) :
    Related bs c x ↔ r.Holds family x := by
  constructor
  · intro related
    have source := relatedSource lineage related
    rw [found,Option.map_some] at source
    obtain ⟨face,at_,same⟩ := Option.map_eq_some_iff.mp source.symm
    cases face with
    | fake other auto =>
      cases same
      exact ⟨auto,at_⟩
    | system origin => cases same
  · rintro ⟨auto',held⟩
    obtain ⟨a,kind,time,first,madeA,topA,sourceA,relatedA⟩ := lineage.rooted c _ found
    obtain ⟨b,kind',time',first',madeB,topB,sourceB,relatedB⟩ := lineage.rooted x _ held
    cases first <;> cases sourceA
    cases first' <;> cases sourceB
    cases lineage.single a b kind kind' time time' family _ _ madeA madeB topA topB
    exact .trans _ _ _ (.symm _ _ relatedA) relatedB

theorem faceOf {r : Rack} {c : Nat} {m : Mounted} {face : Face} (mounted : r.clocks[c]? = some m)
    (shows : m.face = face) : r.face? c = some face := by
  rw [face?,mounted,Option.map_some,shows]

theorem timeChange {r u : Rack} {op : Op} {birth : Option Birth} {given : Option (Nat × Nat)}
    (change : Change r op birth given u) : r.time ≤ u.time ∧ (u.time ≠ r.time → op.passes r) := by
  cases change with
  | passed passes later => exact ⟨later,fun _ => passes⟩
  | _ => exact ⟨Nat.le_refl _,fun moved => absurd rfl moved⟩

theorem readsWithin (start : UInt64) (n : Nat) :
    (start + UInt64.ofNat n).toNat = (start.toNat + n) % 2^64 := by
  simp [UInt64.toNat_add]

/- What every clock reads after a run. -/
structure Accounted (ops : List Op) (bs : List Birth) (r : Rack) : Prop where
  lines : bs.length = r.clocks.length
  fits : ∀ (c : Nat) birth face, bs[c]? = some birth → r.face? c = some face → Fits r birth face
  fakes : ∀ (c : Nat) m family auto, r.clocks[c]? = some m → m.face = .fake family auto →
    ∃ (root : Nat) (kind : Kind) (time : Span) (start : UInt64),
      bs[root]? = some (.made kind time) ∧ kind.start? = some start ∧ Related bs c root ∧
      (∀ (other : Nat) kind time, bs[other]? = some (.made kind time) → Related bs c other →
        other = root) ∧
      r.read m = Span.ofMillis ((start.toNat + moved (Related bs c) empty ops) % 2^64)
  systems : ∀ (c : Nat) m origin, r.clocks[c]? = some m → m.face = .system origin →
    r.read m + origin = r.time ∧ ∃ (root : Nat) (kind : Kind),
      bs[root]? = some (.made kind origin) ∧ kind.start? = none ∧ Related bs c root

structure Apart (bs : List Birth) (r : Rack) (op : Op) (u : Rack) : Prop where
  kept : r.clocks <+: u.clocks
  together : r.time ≤ u.time ∧ ∀ m ∈ r.clocks, ∀ origin, m.face = .system origin →
    u.read m = r.read m + (u.time - r.time)
  timed : u.time ≠ r.time → op.passes r
  related : ∀ (c : Nat) m family auto, r.clocks[c]? = some m → m.face = .fake family auto →
    u.read m ≠ r.read m →
    ∃ i, op.on? = some i ∧ r.fakeFace? i ≠ none ∧ Related bs c (i % r.clocks.length)

theorem accounted (ops : List Op) : Accounted ops (births empty ops) (after empty ops) := by
  have lineage := lineageOf ops
  refine ⟨lineage.lines,lineage.fits,?_,?_⟩
  · intro c m family auto mounted face
    have found := faceOf mounted face
    obtain ⟨root,kind,time,first,made,top,source,related⟩ := lineage.rooted c _ found
    cases first <;> cases source
    rename_i auto'
    have fits := lineage.fits root _ _ made top
    obtain ⟨start,isFake⟩ := Option.ne_none_iff_exists'.mp fits.1
    refine ⟨root,kind,time,start,made,isFake,.symm _ _ related,?_,?_⟩
    · intro other kind' time' madeOther relatedOther
      obtain ⟨auto'',held⟩ := (relatedHolds lineage found other).mp relatedOther
      exact lineage.single other root kind' kind time' time family _ _ madeOther made held top
    · have count := balanceRun ops root kind time start family _ made isFake top
      have members : moved (Related (births empty ops) c) empty ops =
          moved ((after empty ops).Holds family) empty ops :=
        movedLocal fun x _ => relatedHolds lineage found x
      rw [read,face,members]
      dsimp only
      rw [count,Millis.now,readsWithin]
  · intro c m origin mounted face
    have found := faceOf mounted face
    have earlier := lineage.earlier c origin found
    obtain ⟨root,kind,time,first,made,top,source,related⟩ := lineage.rooted c _ found
    cases first <;> cases source
    obtain ⟨isSystem,rfl⟩ := lineage.fits root _ _ made top
    refine ⟨?_,root,kind,made,isSystem,.symm _ _ related⟩
    rw [read,face]
    exact Span.ext (Nat.sub_add_cancel earlier)

theorem apart (ops : List Op) (op : Op) :
    Apart (births empty ops) (after empty ops) op ((after empty ops).step op).2 := by
  have lineage := lineageOf ops
  have change := (after empty ops).stepChange op
  obtain ⟨later,passes⟩ := timeChange change
  refine ⟨clocksChange change,⟨later,?_⟩,passes,?_⟩
  · intro m mem origin face
    obtain ⟨c,mounted⟩ := List.mem_iff_getElem?.mp mem
    have earlier := lineage.earlier c origin (faceOf mounted face)
    rw [read,read,face]
    simp only [Span.le_iff] at later earlier
    refine Span.ext ?_
    simp only [Span.nanos_sub,Span.nanos_add]
    omega
  · intro c m family auto mounted face moves
    have found := faceOf mounted face
    have counter := counterChange change (lineage.known c family auto found)
    rcases given : op.given? (after empty ops) with _ | ⟨x,k⟩
    · rw [given] at counter
      simp [share] at counter
      simp [read,face,counter] at moves
    · rw [given] at change counter
      obtain ⟨i,_,_,on,fake,rfl,_⟩ := givenFace change
      refine ⟨i,on,by simp [fake],(relatedHolds lineage found _).mpr ?_⟩
      by_contra free
      simp [share,free] at counter
      simp [read,face,counter] at moves

theorem familiesApart (ops : List Op) :
    Accounted ops (births empty ops) (after empty ops) ∧
      ∀ op, Apart (births empty ops) (after empty ops) op ((after empty ops).step op).2 :=
  ⟨accounted ops,apart ops⟩

end PaneWatch.Rack
