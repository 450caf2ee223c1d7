import PaneWatch.Json.Reader
import PaneWatch.Proofs.Json.Lexemes

/-! A value read back from its own text, in any layout that puts only blanks into the gaps and
in front of whatever may follow a value. A strict reader finds the value itself; one that only
skims finds its end. -/
namespace PaneWatch.Json
open Text

structure Layout.Blank (layout : Layout) : Prop where
  gap : ∀ depth, (layout.gap depth).all isGap = true
  afterColon : layout.afterColon.all isGap = true

theorem compactBlank : Layout.compact.Blank := ⟨fun _ => rfl,rfl⟩

theorem indentedBlank : Layout.indented.Blank where
  gap depth := by simp [Layout.indented,isGap]
  afterColon := rfl

mutual

/- Its numbers are such as a reader takes for what was written. One that only skims does not
mind their size. -/
def Value.Lawful (r : Rigour) : Value → Prop
  | .integer i => r = .strict → Exact i
  | .decimal literal => number r literal = .ok (.decimal literal,[])
  | .array vs => LawfulItems r vs
  | .object ms => LawfulMembers r ms
  | _ => True

def LawfulItems (r : Rigour) : List Value → Prop
  | [] => True
  | v::vs => v.Lawful r ∧ LawfulItems r vs

def LawfulMembers (r : Rigour) : List (String × Value) → Prop
  | [] => True
  | (_,v)::ms => v.Lawful r ∧ LawfulMembers r ms

end

variable {layout : Layout} {r : Rigour}

theorem numberStarts {cs left : List Char} {v : Value} (found : number r cs = .ok (v,left)) :
    ∃ c more, cs = c::more ∧ startsNumber c = true := by
  rcases cs with _ | ⟨c,more⟩
  · cases r <;> cases found
  refine ⟨c,more,rfl,?_⟩
  by_cases minus : c = '-'
  · simp [startsNumber,minus]
  · by_contra noStart
    have noDigit : c.isDigit = false := by simp_all [startsNumber]
    simp [number,minusPart,minus,wholePart,someDigits,digits?,noDigit,bind,Except.bind] at found

def Opens (c : Char) : Prop := isGap c = false ∧ c ≠ ']' ∧ c ≠ '\x7d'
instance (c : Char) : Decidable (Opens c) := by unfold Opens; infer_instance

theorem numberOpens {c : Char} (start : startsNumber c = true) : Opens c := by
  refine ⟨?_,?_,?_⟩
  · by_contra gap
    simp only [isGap,Bool.not_eq_false,Bool.or_eq_true,beq_iff_eq] at gap
    rcases gap with ((rfl | rfl) | rfl) | rfl <;> contradiction
  · rintro rfl; contradiction
  · rintro rfl; contradiction

def Value.StartsWith : Value → Char → Prop
  | .null,c => c = 'n'
  | .bool b,c => c = 't' ∧ b = true ∨ c = 'f' ∧ b = false
  | .integer _,c => startsNumber c = true
  | .decimal _,c => startsNumber c = true
  | .string _,c => c = '"'
  | .array _,c => c = '['
  | .object _,c => c = '\x7b'

theorem textStarts (layout : Layout) {v : Value} (lawful : v.Lawful r) (depth : Nat) :
    ∃ c more, v.render layout depth = c::more ∧ v.StartsWith c := by
  cases v with
  | null => exact ⟨_,_,by rw [Value.render],rfl⟩
  | bool b => cases b <;> exact ⟨_,_,by rw [Value.render],by simp [Value.StartsWith]⟩
  | integer i => rw [Value.render]; exact numberStarts (integerReads lawful)
  | decimal literal => rw [Value.render]; exact numberStarts lawful
  | string s => exact ⟨_,_,by rw [Value.render,quoted],rfl⟩
  | array vs => cases vs <;> exact ⟨_,_,by rw [Value.render],rfl⟩
  | object ms => cases ms <;> exact ⟨_,_,by rw [Value.render],rfl⟩

theorem startOpens {v : Value} {c : Char} (starts : v.StartsWith c) : Opens c := by
  cases v with
  | integer i => exact numberOpens starts
  | decimal literal => exact numberOpens starts
  | bool b => rcases starts with ⟨rfl,_⟩ | ⟨rfl,_⟩ <;> decide
  | _ => cases starts; decide

theorem textOpens (layout : Layout) {v : Value} (lawful : v.Lawful r) (depth : Nat) :
    ∃ c more, v.render layout depth = c::more ∧ Opens c :=
  let ⟨c,more,text,starts⟩ := textStarts layout lawful depth
  ⟨c,more,text,startOpens starts⟩

theorem opensStays {c : Char} (opens : Opens c) (rest : List Char) :
    afterGap (c::rest) = c::rest := by
  simp [afterGap,opens.1]

theorem gapStays {c : Char} (opens : Opens c) {gap : List Char} (blank : gap.all isGap = true)
    (rest : List Char) : afterGap (gap ++ c::rest) = c::rest := by
  rw [gapSkipped blank,opensStays opens]

theorem endsItems {rest : List Char} (ends : Ends rest) (depth : Nat) (vs : List Value) :
    Ends (renderItems layout depth vs ++ rest) := by
  cases vs with
  | nil => rwa [renderItems]
  | cons v vs => rw [renderItems]; exact endsMark (.inl rfl) _

theorem endsMembers {rest : List Char} (ends : Ends rest) (depth : Nat)
    (ms : List (String × Value)) : Ends (renderMembers layout depth ms ++ rest) := by
  cases ms with
  | nil => rwa [renderMembers]
  | cons m ms => rw [renderMembers]; exact endsMark (.inl rfl) _

def KeyReadAs (r : Rigour) (k k' : String) : Prop :=
  ∀ gap rest, gap.all isGap = true → key r (gap ++ (quoted k ++ rest)) = .ok (k',rest)

theorem keyReads (r : Rigour) (k : String) : ∃ k', (r = .strict → k' = k) ∧ KeyReadAs r k k' := by
  obtain ⟨k',same,reads⟩ := quotedReads r k
  refine ⟨k',same,fun gap rest blank => ?_⟩
  rw [key,gapSkipped blank,quoted]
  simpa [afterGap,isGap] using reads rest

theorem valueGap {gap : List Char} (blank : gap.all isGap = true) (bound : Nat) (cs : List Char) :
    value r bound (gap ++ cs) = value r bound cs := by
  cases bound with
  | zero => rw [value,value]
  | succ bound => rw [value,value,gapSkipped blank]

/- `w` is what the reader makes of `v` at whatever depth it stands. The bound of a reader only
has to be twice as long as the text. -/
def ReadAs (r : Rigour) (layout : Layout) (v w : Value) : Prop :=
  ∀ depth bound rest, Ends rest → 2 * (v.render layout depth).length ≤ bound →
    value r bound (v.render layout depth ++ rest) = .ok (w,rest)

def ItemsReadAs (r : Rigour) (layout : Layout) (vs ws : List Value) : Prop :=
  ∀ depth bound gap rest, gap.all isGap = true →
    2 * (renderItems layout depth vs).length + 1 ≤ bound →
    moreItems r bound (renderItems layout depth vs ++ (gap ++ ']'::rest)) = .ok (ws,rest)

def MembersReadAs (r : Rigour) (layout : Layout) (ms ns : List (String × Value)) : Prop :=
  ∀ depth bound gap rest, gap.all isGap = true →
    2 * (renderMembers layout depth ms).length + 1 ≤ bound →
    moreMembers r bound (renderMembers layout depth ms ++ (gap ++ '\x7d'::rest)) = .ok (ns,rest)

theorem wordReads (r : Rigour) (layout : Layout) {v : Value}
    (word : v = .null ∨ ∃ b, v = .bool b) : ReadAs r layout v v := by
  intro depth bound rest ends room
  rcases bound with _ | bound
  · rcases word with rfl | ⟨_ | _,rfl⟩ <;> simp [Value.render] at room
  rcases word with rfl | ⟨_ | _,rfl⟩ <;> rw [Value.render,value] <;> rfl

theorem numberReads {v : Value}
    (reads : ∀ depth, number r (v.render layout depth) = .ok (v,[])) :
    ReadAs r layout v v := by
  intro depth bound rest ends room
  obtain ⟨c,more,text,start⟩ := numberStarts (reads depth)
  have found := numberMore (reads depth) (endsApart ends)
  rcases bound with _ | bound
  · simp [text] at room
  rw [text,List.cons_append,List.nil_append] at found
  rw [text,List.cons_append,value]
  have stays : afterGap (c::(more ++ rest)) = c::(more ++ rest) :=
    opensStays (numberOpens start) _
  rw [stays]
  split
  · contradiction
  · cases ‹c::(more ++ rest) = _›; contradiction
  · cases ‹c::(more ++ rest) = _›; contradiction
  · cases ‹c::(more ++ rest) = _›; contradiction
  · cases ‹c::(more ++ rest) = _›
    rw [scalar,if_pos start,found]

theorem stringReads (r : Rigour) (layout : Layout) (s : String) :
    ∃ t, (r = .strict → t = s) ∧ ReadAs r layout (.string s) (.string t) := by
  obtain ⟨t,same,reads⟩ := quotedReads r s
  refine ⟨t,same,fun depth bound rest ends room => ?_⟩
  rcases bound with _ | bound
  · simp [Value.render,quoted] at room
  rw [Value.render,quoted,value]
  simp [afterGap,isGap,reads rest,Except.map]

theorem emptyReads (r : Rigour) (layout : Layout) :
    ReadAs r layout (.array []) (.array []) ∧ ReadAs r layout (.object []) (.object []) := by
  constructor <;>
  · intro depth bound rest ends room
    rcases bound with _ | bound
    · simp [Value.render] at room
    rw [Value.render,value]
    rfl

theorem arrayOpened (bound : Nat) {cs more : List Char} {c : Char} (start : afterGap cs = c::more)
    (opens : Opens c) : value r (bound + 1) ('['::cs) = (do
      let (v,cs) ← value r bound (c::more)
      let (vs,cs) ← moreItems r bound cs
      .ok (.array (v::vs),cs)) := by
  have outer : afterGap ('['::cs) = '['::cs := rfl
  simp only [value,outer,start]
  split
  · rename_i closed
    exact absurd (List.cons.inj closed).1 opens.2.1
  · rfl

theorem objectOpened (bound : Nat) {cs more : List Char} {c : Char} (start : afterGap cs = c::more)
    (opens : Opens c) : value r (bound + 1) ('\x7b'::cs) = (do
      let (m,cs) ← member r bound (c::more)
      let (ms,cs) ← moreMembers r bound cs
      .ok (.object (m::ms),cs)) := by
  have outer : afterGap ('\x7b'::cs) = '\x7b'::cs := rfl
  simp only [value,outer,start]
  split
  · rename_i closed
    exact absurd (List.cons.inj closed).1 opens.2.2
  · rfl

theorem arrayReads {v w : Value} {vs ws : List Value} (blank : layout.Blank)
    (lawful : v.Lawful r) (first : ReadAs r layout v w) (more : ItemsReadAs r layout vs ws) :
    ReadAs r layout (.array (v::vs)) (.array (w::ws)) := by
  intro depth bound rest ends room
  rcases bound with _ | bound
  · simp [Value.render] at room
  simp only [Value.render,List.length_cons,List.length_append,List.length_nil] at room
  have tail := more (depth + 1) bound (layout.gap depth) rest (blank.gap depth) (by omega)
  have head := first (depth + 1) bound
    (renderItems layout (depth + 1) vs ++ (layout.gap depth ++ ']'::rest))
    (endsItems (endsClose (blank.gap depth) (.inr (.inl rfl)) rest) (depth + 1) vs) (by omega)
  obtain ⟨c,text,opened,opens⟩ := textOpens layout lawful (depth + 1)
  rw [opened] at head
  have start : ∀ cs, afterGap (layout.gap (depth + 1) ++ (v.render layout (depth + 1) ++ cs)) =
      c::(text ++ cs) := by
    intro cs
    rw [opened]
    exact gapStays opens (blank.gap _) _
  simp only [Value.render,List.cons_append,List.append_assoc,List.nil_append]
  rw [arrayOpened bound (start _) opens]
  exact bindOk.mpr ⟨_,head,bindOk.mpr ⟨_,tail,rfl⟩⟩

theorem commaStays (cs : List Char) : afterGap (','::cs) = ','::cs := rfl

theorem noItems (r : Rigour) (layout : Layout) : ItemsReadAs r layout [] [] := by
  intro depth bound gap rest blank room
  rcases bound with _ | bound
  · omega
  have close : afterGap (gap ++ ']'::rest) = ']'::rest := gapSkipped blank _
  simp only [renderItems,List.nil_append,moreItems,close]

theorem moreItemsRead {v w : Value} {vs ws : List Value} (blank : layout.Blank)
    (first : ReadAs r layout v w) (more : ItemsReadAs r layout vs ws) :
    ItemsReadAs r layout (v::vs) (w::ws) := by
  intro depth bound gap rest blankGap room
  rcases bound with _ | bound
  · omega
  simp only [renderItems,List.length_cons,List.length_append] at room
  have tail := more depth bound gap rest blankGap (by omega)
  have head := first depth bound (renderItems layout depth vs ++ (gap ++ ']'::rest))
    (endsItems (endsClose blankGap (.inr (.inl rfl)) rest) depth vs) (by omega)
  simp only [renderItems,List.cons_append,List.append_assoc,moreItems,commaStays,
    valueGap (blank.gap depth)]
  exact bindOk.mpr ⟨_,head,bindOk.mpr ⟨_,tail,rfl⟩⟩

theorem colonRead (cs : List Char) : colon (':'::cs) = .ok cs := rfl

theorem memberReads {k k' : String} {v w : Value} {gap rest : List Char} (blank : layout.Blank)
    (readsKey : KeyReadAs r k k') (reads : ReadAs r layout v w) (depth bound : Nat)
    (blankGap : gap.all isGap = true) (ends : Ends rest)
    (room : 2 * (v.render layout depth).length + 1 ≤ bound) :
    member r bound
        (gap ++ (quoted k ++ ':'::(layout.afterColon ++ (v.render layout depth ++ rest)))) =
      .ok ((k',w),rest) := by
  rcases bound with _ | bound
  · omega
  have head := reads depth bound rest ends (by omega)
  rw [member]
  refine bindOk.mpr ⟨_,readsKey gap _ blankGap,bindOk.mpr ⟨_,colonRead _,?_⟩⟩
  rw [valueGap blank.afterColon]
  exact bindOk.mpr ⟨_,head,rfl⟩

theorem objectReads {k k' : String} {v w : Value} {ms ns : List (String × Value)}
    (blank : layout.Blank) (readsKey : KeyReadAs r k k')
    (first : ReadAs r layout v w) (more : MembersReadAs r layout ms ns) :
    ReadAs r layout (.object ((k,v)::ms)) (.object ((k',w)::ns)) := by
  intro depth bound rest ends room
  rcases bound with _ | bound
  · simp [Value.render] at room
  simp only [Value.render,quoted,List.length_cons,List.length_append,List.length_nil] at room
  have tail := more (depth + 1) bound (layout.gap depth) rest (blank.gap depth) (by omega)
  have endsMore : Ends (renderMembers layout (depth + 1) ms ++
      (layout.gap depth ++ '\x7d'::rest)) :=
    endsMembers (endsClose (blank.gap depth) (by simp) rest) (depth + 1) ms
  have head := memberReads blank readsKey first (depth + 1) bound noGap endsMore (by omega)
  have start : ∀ cs, afterGap (layout.gap (depth + 1) ++ (quoted k ++ cs)) = quoted k ++ cs := by
    intro cs
    rw [gapSkipped (blank.gap _)]
    rfl
  simp only [Value.render,List.cons_append,List.append_assoc,List.nil_append] at head ⊢
  rw [objectOpened bound (start _) (by decide)]
  exact bindOk.mpr ⟨_,head,bindOk.mpr ⟨_,tail,rfl⟩⟩

theorem noMembers (r : Rigour) (layout : Layout) : MembersReadAs r layout [] [] := by
  intro depth bound gap rest blank room
  rcases bound with _ | bound
  · omega
  have close : afterGap (gap ++ '\x7d'::rest) = '\x7d'::rest := gapSkipped blank _
  simp only [renderMembers,List.nil_append,moreMembers,close]

theorem moreMembersRead {k k' : String} {v w : Value} {ms ns : List (String × Value)}
    (blank : layout.Blank) (readsKey : KeyReadAs r k k')
    (first : ReadAs r layout v w) (more : MembersReadAs r layout ms ns) :
    MembersReadAs r layout ((k,v)::ms) ((k',w)::ns) := by
  intro depth bound gap rest blankGap room
  rcases bound with _ | bound
  · omega
  simp only [renderMembers,quoted,List.length_cons,List.length_append,List.length_nil] at room
  have tail := more depth bound gap rest blankGap (by omega)
  have endsMore : Ends (renderMembers layout depth ms ++ (gap ++ '\x7d'::rest)) :=
    endsMembers (endsClose blankGap (by simp) rest) depth ms
  have head := memberReads blank readsKey first depth bound (blank.gap depth) endsMore (by omega)
  simp only [renderMembers,List.cons_append,List.append_assoc,moreMembers,commaStays]
  exact bindOk.mpr ⟨_,head,bindOk.mpr ⟨_,tail,rfl⟩⟩

mutual

theorem valueReads (r : Rigour) (blank : layout.Blank) :
    ∀ v : Value, v.Lawful r → ∃ w, (r = .strict → w = v) ∧ ReadAs r layout v w
  | .null,_ => ⟨.null,fun _ => rfl,wordReads r layout (.inl rfl)⟩
  | .bool b,_ => ⟨.bool b,fun _ => rfl,wordReads r layout (.inr ⟨b,rfl⟩)⟩
  | .integer i,exact => ⟨.integer i,fun _ => rfl,numberReads fun _ => integerReads exact⟩
  | .decimal literal,lawful => ⟨.decimal literal,fun _ => rfl,numberReads fun _ => lawful⟩
  | .string s,_ =>
    let ⟨t,same,reads⟩ := stringReads r layout s
    ⟨.string t,fun strict => by rw [same strict],reads⟩
  | .array [],_ => ⟨.array [],fun _ => rfl,(emptyReads r layout).1⟩
  | .array (v::vs),⟨lawful,lawfulMore⟩ =>
    let ⟨w,same,first⟩ := valueReads r blank v lawful
    let ⟨ws,sameMore,more⟩ := itemsRead r blank vs lawfulMore
    ⟨.array (w::ws),fun strict => by rw [same strict,sameMore strict],
      arrayReads blank lawful first more⟩
  | .object [],_ => ⟨.object [],fun _ => rfl,(emptyReads r layout).2⟩
  | .object ((k,v)::ms),⟨lawful,lawfulMore⟩ =>
    let ⟨k',sameKey,readsKey⟩ := keyReads r k
    let ⟨w,same,first⟩ := valueReads r blank v lawful
    let ⟨ns,sameMore,more⟩ := membersRead r blank ms lawfulMore
    ⟨.object ((k',w)::ns),fun strict => by rw [sameKey strict,same strict,sameMore strict],
      objectReads blank readsKey first more⟩

theorem itemsRead (r : Rigour) (blank : layout.Blank) :
    ∀ vs : List Value, LawfulItems r vs → ∃ ws, (r = .strict → ws = vs) ∧ ItemsReadAs r layout vs ws
  | [],_ => ⟨[],fun _ => rfl,noItems r layout⟩
  | v::vs,⟨lawful,lawfulMore⟩ =>
    let ⟨w,same,first⟩ := valueReads r blank v lawful
    let ⟨ws,sameMore,more⟩ := itemsRead r blank vs lawfulMore
    ⟨w::ws,fun strict => by rw [same strict,sameMore strict],moreItemsRead blank first more⟩

theorem membersRead (r : Rigour) (blank : layout.Blank) :
    ∀ ms : List (String × Value), LawfulMembers r ms →
      ∃ ns, (r = .strict → ns = ms) ∧ MembersReadAs r layout ms ns
  | [],_ => ⟨[],fun _ => rfl,noMembers r layout⟩
  | (k,v)::ms,⟨lawful,lawfulMore⟩ =>
    let ⟨k',sameKey,readsKey⟩ := keyReads r k
    let ⟨w,same,first⟩ := valueReads r blank v lawful
    let ⟨ns,sameMore,more⟩ := membersRead r blank ms lawfulMore
    ⟨(k',w)::ns,fun strict => by rw [sameKey strict,same strict,sameMore strict],
      moreMembersRead blank readsKey first more⟩

end

theorem anyValueReads (r : Rigour) (blank : layout.Blank) {v : Value} (lawful : v.Lawful r)
    (depth : Nat) : ∃ w, (r = .strict → w = v) ∧ ∀ gap rest, gap.all isGap = true → Ends rest →
      anyValue r (gap ++ (v.render layout depth ++ rest)) = .ok (w,rest) := by
  obtain ⟨w,same,reads⟩ := valueReads r blank v lawful
  refine ⟨w,same,fun gap rest blankGap ends => ?_⟩
  rw [anyValue,valueGap blankGap]
  refine reads depth _ rest ends ?_
  simp only [depthFor,List.length_append]
  omega

theorem documentReads (blank : layout.Blank) {v : Value} (lawful : v.Lawful .strict) :
    Value.ofText (v.render layout 0) = .ok v := by
  obtain ⟨w,same,reads⟩ := anyValueReads .strict blank lawful 0
  have found := reads [] [] rfl endsNil
  rw [same rfl,List.nil_append,List.append_nil] at found
  rw [Value.ofText,whole]
  exact bindOk.mpr ⟨_,found,rfl⟩

end PaneWatch.Json
