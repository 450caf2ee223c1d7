import PaneWatch.Json.Form
import PaneWatch.Proofs.Json.ValueText

/-! The two ways of a form agree: what it makes of a value it makes of the text of that value,
and where it refuses the one it refuses the other. -/
namespace PaneWatch.Json
open Text

theorem toOptionBind {α β : Type} (x : Reading α) (f : α → Reading β) :
    (x >>= f).toOption = x.toOption.bind fun a => (f a).toOption := by
  cases x <;> rfl

theorem toOptionOk {α : Type} (a : α) : (Except.ok a : Reading α).toOption = some a := rfl

theorem toOptionError {α : Type} (fault : Fault) :
    (Except.error fault : Reading α).toOption = none := rfl

theorem toOptionMap {α β : Type} (x : Reading α) (f : α → β) :
    (x.map f).toOption = x.toOption.map f := by
  cases x <;> rfl

namespace Form

variable {α β : Type} {cs more : List Char} {c : Char}

/- The form reads off the front of a text just what stands for the value written there, with
numbers of any size. -/
def Agrees (form : Form α) : Prop :=
  ∀ {layout : Layout}, layout.Blank → ∀ {v : Value}, v.Lawful .skimming →
    ∀ depth {gap rest : List Char}, gap.all isGap = true → Ends rest →
    (form.read (gap ++ (v.render layout depth ++ rest))).toOption =
      (form.ofValue? v).map fun a => (a,rest)

theorem refineAgrees {form : Form α} (agrees : form.Agrees) (f : α → Option β) :
    (form.refine f).Agrees := by
  intro layout blank v lawful depth gap rest blankGap ends
  simp only [refine,toOptionBind,agrees blank lawful depth blankGap ends]
  cases form.ofValue? v with
  | none => rfl
  | some a => cases refined : f a <;> simp [refined,Except.toOption]

theorem stringRead {gap : List Char} (blank : gap.all isGap = true) (s : String)
    (rest : List Char) : Form.string.read (gap ++ (quoted s ++ rest)) = .ok (s,rest) := by
  obtain ⟨t,same,reads⟩ := quotedReads .strict s
  have start : ∀ cs, afterGap (gap ++ '"'::cs) = '"'::cs := fun _ => gapSkipped blank _
  simp only [Form.string,quoted,List.cons_append,start]
  simpa [same rfl] using reads rest

theorem stringRefuses (start : afterGap cs = c::more) (other : c ≠ '"') :
    (Form.string.read cs).toOption = none := by
  simp only [Form.string,start]
  split
  · rename_i quote
    exact absurd (List.cons.inj quote).1 other
  · rfl

theorem integerRefuses (start : afterGap cs = c::more) (other : startsNumber c = false) :
    (Form.integer.read cs).toOption = none := by
  simp [Form.integer,start,other,Except.toOption]

theorem boolRefuses (start : afterGap cs = c::more) (other : c ≠ 't' ∧ c ≠ 'f') :
    (Form.bool.read cs).toOption = none := by
  simp only [Form.bool,start]
  split
  · rename_i letter
    exact absurd (List.cons.inj letter).1 other.1
  · rename_i letter
    exact absurd (List.cons.inj letter).1 other.2
  · rfl

theorem nullRefuses (start : afterGap cs = c::more) (other : c ≠ 'n') :
    (Form.null.read cs).toOption = none := by
  simp only [Form.null,start]
  split
  · rename_i letter
    exact absurd (List.cons.inj letter).1 other
  · rfl

end Form

theorem gapStarts (layout : Layout) {v : Value} (lawful : v.Lawful .skimming) (depth : Nat)
    {gap : List Char} (blank : gap.all isGap = true) (rest : List Char) :
    ∃ c more, afterGap (gap ++ (v.render layout depth ++ rest)) = c::more ∧
      v.render layout depth ++ rest = c::more ∧ v.StartsWith c := by
  obtain ⟨c,more,text,starts⟩ := textStarts layout lawful depth
  refine ⟨c,more ++ rest,?_,by rw [text]; rfl,starts⟩
  rw [text]
  exact gapStays (startOpens starts) blank _

namespace Form

theorem stringAgrees : Form.string.Agrees := by
  intro layout blank v lawful depth gap rest blankGap ends
  cases v with
  | string s => rw [Value.render,stringRead blankGap]; rfl
  | _ =>
    obtain ⟨c,more,start,_,starts⟩ := gapStarts layout lawful depth blankGap rest
    refine stringRefuses start ?_
    rintro rfl
    simp [Value.StartsWith,startsNumber] at starts

theorem numberAgrees {f : Int → Option α} {v : Value} {rest : List Char}
    (start : afterGap cs = c::more) (isNumber : startsNumber c = true)
    (found : number .strict (c::more) = .ok (v,rest) ∨
      number .strict (c::more) = .error .grammar ∧ (Form.integer.refine f).ofValue? v = none) :
    ((Form.integer.refine f).read cs).toOption =
      ((Form.integer.refine f).ofValue? v).map fun a => (a,rest) := by
  rcases found with found | ⟨past,refused⟩
  · simp only [refine,Form.integer,start,isNumber,↓reduceIte,found,toOptionBind,toOptionOk]
    cases v with
    | integer i => cases refined : f i <;> simp [refined,toOptionOk,toOptionError]
    | _ => rfl
  · rw [refused]
    simp only [refine,Form.integer,start,isNumber,↓reduceIte,past,toOptionBind,toOptionError]
    rfl

/- The text of an integer past the range of a double is no number to a strict reader, so the
form has to refuse such a value too. -/
theorem boundedAgrees {f : Int → Option α} (bounded : ∀ i, ¬ Exact i → f i = none) :
    (Form.integer.refine f).Agrees := by
  intro layout blank v lawful depth gap rest blankGap ends
  obtain ⟨c,more,start,text,starts⟩ := gapStarts layout lawful depth blankGap rest
  have other : startsNumber c = false → ((Form.integer.refine f).read
      (gap ++ (v.render layout depth ++ rest))).toOption = none := by
    intro noNumber
    rw [refine,toOptionBind,integerRefuses start noNumber]
    rfl
  cases v with
  | integer i =>
    refine numberAgrees start starts ?_
    rw [← text,Value.render]
    by_cases exact : Exact i
    · exact .inl (numberMore (integerReads fun _ => exact) (endsApart ends))
    · have skimmed : number .skimming (integerText i) = .ok (.integer i,[]) :=
        integerReads (by simp)
      rcases numberMoreUnlessPast (r := .strict) skimmed (endsApart ends) with same | ⟨_,past⟩
      · exact .inl same
      · exact .inr ⟨past,bounded i exact⟩
  | decimal literal =>
    refine numberAgrees start starts ?_
    rw [← text,Value.render]
    rcases numberMoreUnlessPast (r := .strict) lawful (endsApart ends) with same | ⟨_,past⟩
    · exact .inl same
    · exact .inr ⟨past,rfl⟩
  | bool b => rcases starts with ⟨rfl,_⟩ | ⟨rfl,_⟩ <;> exact other rfl
  | _ => cases starts; exact other rfl

theorem boolAgrees : Form.bool.Agrees := by
  intro layout blank v lawful depth gap rest blankGap ends
  cases v with
  | bool b =>
    have start : ∀ c cs, Opens c → afterGap (gap ++ c::cs) = c::cs :=
      fun c cs opens => gapStays opens blankGap cs
    cases b
    · simp only [Form.bool,Value.render,List.cons_append,start 'f' _ (by decide)]
      rfl
    · simp only [Form.bool,Value.render,List.cons_append,start 't' _ (by decide)]
      rfl
  | _ =>
    obtain ⟨c,more,start,_,starts⟩ := gapStarts layout lawful depth blankGap rest
    refine boolRefuses start ⟨?_,?_⟩ <;>
    · rintro rfl
      simp [Value.StartsWith,startsNumber] at starts

theorem nullAgrees : Form.null.Agrees := by
  intro layout blank v lawful depth gap rest blankGap ends
  cases v with
  | null =>
    have start : ∀ cs, afterGap (gap ++ 'n'::cs) = 'n'::cs := fun _ => gapSkipped blankGap _
    simp only [Form.null,Value.render,List.cons_append,start]
    rfl
  | _ =>
    obtain ⟨c,more,start,_,starts⟩ := gapStarts layout lawful depth blankGap rest
    refine nullRefuses start ?_
    rintro rfl
    simp [Value.StartsWith,startsNumber] at starts

theorem nullableAgrees {form : Form α} (agrees : form.Agrees) : form.nullable.Agrees := by
  intro layout blank v lawful depth gap rest blankGap ends
  have other : ∀ c more, afterGap (gap ++ (v.render layout depth ++ rest)) = c::more → c ≠ 'n' →
      (form.nullable.read (gap ++ (v.render layout depth ++ rest))).toOption =
        ((form.ofValue? v).map some).map fun a => (a,rest) := by
    intro c more start notNull
    simp only [Form.nullable,start]
    split
    · rename_i letter
      exact absurd (List.cons.inj letter).1 notNull
    · rw [toOptionMap,agrees blank lawful depth blankGap ends,Option.map_map,Option.map_map]
      rfl
  cases v with
  | null =>
    have start : ∀ cs, afterGap (gap ++ 'n'::cs) = 'n'::cs := fun _ => gapSkipped blankGap _
    simp only [Form.nullable,Value.render,List.cons_append,start]
    rfl
  | _ =>
    obtain ⟨c,more,start,_,starts⟩ := gapStarts layout lawful depth blankGap rest
    refine other c more start ?_
    rintro rfl
    simp [Value.StartsWith,startsNumber] at starts

theorem refinedRead {named : String → Option α} {gap : List Char} (blank : gap.all isGap = true)
    (s : String) (rest : List Char) :
    ((Form.string.refine named).read (gap ++ (quoted s ++ rest))).toOption =
      (named s).map fun a => (a,rest) := by
  simp only [refine,stringRead blank,toOptionBind]
  cases refined : named s <;> simp [refined,Except.toOption]

theorem labelMemberAgrees (named : String → Option α) {layout : Layout} (blank : layout.Blank)
    {k : String} {v : Value} {ms : List (String × Value)} (lawful : v.Lawful .skimming)
    (depth : Nat) {gap : List Char} (blankGap : gap.all isGap = true) (rest : List Char) :
    ((Form.label named).read
        (gap ++ ((Value.object ((k,v)::ms)).render layout depth ++ rest))).toOption =
      ((Form.label named).ofValue? (.object ((k,v)::ms))).map fun a => (a,rest) := by
  have start : ∀ cs, afterGap (gap ++ '\x7b'::cs) = '\x7b'::cs := fun _ => gapSkipped blankGap _
  have close : ∀ cs, afterGap (layout.gap depth ++ '\x7d'::cs) = '\x7d'::cs :=
    fun _ => gapSkipped (blank.gap depth) _
  have endsMore : Ends (renderMembers layout (depth + 1) ms ++
      (layout.gap depth ++ '\x7d'::rest)) :=
    endsMembers (endsClose (blank.gap depth) (by simp) rest) (depth + 1) ms
  have member := nullAgrees blank lawful (depth + 1) blank.afterColon endsMore
  simp only [Form.label,Value.render,List.cons_append,List.append_assoc,List.nil_append,start,
    toOptionBind,refinedRead (blank.gap _)]
  cases v with
  | null =>
    have found := member.trans (show _ = some _ from rfl)
    cases key : named k with
    | none => cases ms <;> simp [key]
    | some a =>
      simp only [Option.map_some,Option.bind_some,colonRead,toOptionOk,found]
      cases ms with
      | nil => simp [renderMembers,close,toOptionOk,key]
      | cons m ms => simp [renderMembers,commaStays,Except.toOption]
  | _ =>
    have refused := member.trans (show _ = none from rfl)
    cases named k <;> simp [colonRead,toOptionOk,refused]

theorem labelAgrees (named : String → Option α) : (Form.label named).Agrees := by
  intro layout blank v lawful depth gap rest blankGap ends
  cases v with
  | string s =>
    have start : ∀ cs, afterGap (gap ++ '"'::cs) = '"'::cs := fun _ => gapSkipped blankGap _
    simp only [Form.label,Value.render,quoted,List.cons_append,start]
    exact refinedRead blankGap s rest
  | object ms =>
    rcases ms with _ | ⟨⟨k,v⟩,ms⟩
    · have start : ∀ cs, afterGap (gap ++ '\x7b'::cs) = '\x7b'::cs :=
        fun _ => gapSkipped blankGap _
      simp only [Form.label,Value.render,List.cons_append,start,toOptionBind,Form.refine]
      rw [stringRefuses (c := '\x7d') rfl (by decide)]
      rfl
    · exact labelMemberAgrees named blank lawful.1 depth blankGap rest
  | _ =>
    obtain ⟨c,more,start,_,starts⟩ := gapStarts layout lawful depth blankGap rest
    simp only [Form.label,start]
    split
    · rfl
    · rename_i quote
      cases quote
      simp [Value.StartsWith,startsNumber] at starts
    · rename_i brace
      cases brace
      simp [Value.StartsWith,startsNumber] at starts
    · rfl

theorem itemsLength (layout : Layout) (depth : Nat) (vs : List Value) :
    vs.length ≤ (renderItems layout depth vs).length := by
  induction vs with
  | nil => exact Nat.zero_le _
  | cons v vs ih =>
    simp only [renderItems,List.length_cons,List.length_append]
    omega

theorem itemRead (layout : Layout) {v : Value} (lawful : v.Lawful .skimming) (depth : Nat)
    {gap : List Char} (blank : gap.all isGap = true) (rest : List Char) :
    afterComma ']' (gap ++ (v.render layout depth ++ rest)) =
      .ok (v.render layout depth ++ rest) := by
  obtain ⟨c,more,start,text,starts⟩ := gapStarts layout lawful depth blank rest
  rw [text] at start ⊢
  simp only [afterComma,start,(startOpens starts).2.1,↓reduceIte]

theorem moreAgree {form : Form α} (agrees : form.Agrees) {layout : Layout} (blank : layout.Blank)
    (depth : Nat) {gap : List Char} (blankGap : gap.all isGap = true) (rest : List Char)
    {vs : List Value} (lawful : LawfulItems .skimming vs) {bound : Nat}
    (room : vs.length < bound) :
    (readMore form.read bound (renderItems layout depth vs ++ (gap ++ ']'::rest))).toOption =
      (vs.mapM form.ofValue?).map fun as => (as,rest) := by
  induction vs generalizing bound with
  | nil =>
    obtain ⟨bound,rfl⟩ := Nat.exists_eq_add_of_lt room
    have close : afterGap (gap ++ ']'::rest) = ']'::rest := gapSkipped blankGap _
    simp [renderItems,readMore,close,toOptionOk]
  | cons v vs ih =>
    obtain ⟨bound,rfl⟩ := Nat.exists_eq_add_of_lt room
    have endsMore : Ends (renderItems layout depth vs ++ (gap ++ ']'::rest)) :=
      endsItems (endsClose blankGap (by simp) rest) depth vs
    have head := agrees blank lawful.1 depth noGap endsMore
    have enough : vs.length < (v::vs).length + bound := by rw [List.length_cons]; omega
    have tail := ih lawful.2 enough
    rw [List.nil_append] at head
    simp only [renderItems,List.cons_append,List.append_assoc,readMore,commaStays,toOptionBind,
      itemRead layout lawful.1 depth (blank.gap depth),toOptionOk,Option.bind_some,head]
    cases first : form.ofValue? v with
    | none => simp [first]
    | some a =>
      simp only [Option.map_some,Option.bind_some,tail]
      cases others : vs.mapM form.ofValue? <;> simp [first,others]

theorem someItemsAgree {form : Form α} (agrees : form.Agrees) {layout : Layout}
    (blank : layout.Blank) {v : Value} {vs : List Value} (lawful : LawfulItems .skimming (v::vs))
    (depth : Nat) {gap : List Char} (blankGap : gap.all isGap = true) (rest : List Char) :
    (form.list.read (gap ++ ((Value.array (v::vs)).render layout depth ++ rest))).toOption =
      (form.list.ofValue? (.array (v::vs))).map fun as => (as,rest) := by
  have start : ∀ cs, afterGap (gap ++ '['::cs) = '['::cs := fun _ => gapSkipped blankGap _
  have endsMore : Ends (renderItems layout (depth + 1) vs ++ (layout.gap depth ++ ']'::rest)) :=
    endsItems (endsClose (blank.gap depth) (by simp) rest) (depth + 1) vs
  have head := agrees blank lawful.1 (depth + 1) noGap endsMore
  obtain ⟨c,more,first,text,starts⟩ := gapStarts layout lawful.1 (depth + 1)
    (blank.gap (depth + 1)) (renderItems layout (depth + 1) vs ++ (layout.gap depth ++ ']'::rest))
  have enough : vs.length <
      (renderItems layout (depth + 1) vs ++ (layout.gap depth ++ ']'::rest)).length + 1 := by
    have := itemsLength layout (depth + 1) vs
    rw [List.length_append]
    omega
  have tail := moreAgree agrees blank (depth + 1) (blank.gap depth) rest lawful.2 enough
  rw [List.nil_append,text] at head
  simp only [Form.list,Value.render,List.cons_append,List.append_assoc,List.nil_append,start,first]
  split
  · contradiction
  · rename_i closed
    exact absurd (List.cons.inj closed).1 (startOpens starts).2.1
  · simp only [toOptionBind,head]
    cases one : form.ofValue? v with
    | none => simp [one]
    | some a =>
      simp only [Option.map_some,Option.bind_some,tail]
      cases others : vs.mapM form.ofValue? <;> simp [one,others,toOptionOk]

theorem listAgrees {form : Form α} (agrees : form.Agrees) : form.list.Agrees := by
  intro layout blank v lawful depth gap rest blankGap ends
  cases v with
  | array vs =>
    cases vs with
    | nil =>
      have start : ∀ cs, afterGap (gap ++ '['::cs) = '['::cs := fun _ => gapSkipped blankGap _
      have close : afterGap (']'::rest) = ']'::rest := rfl
      simp [Form.list,Value.render,start,close,toOptionOk]
    | cons v vs => exact someItemsAgree agrees blank lawful depth blankGap rest
  | _ =>
    obtain ⟨c,more,start,_,starts⟩ := gapStarts layout lawful depth blankGap rest
    simp only [Form.list,start]
    split
    · rename_i bracket
      cases bracket
      simp [Value.StartsWith,startsNumber] at starts
    · rfl

section Records

variable {δ : Type} {slots : List (Slot δ)} {layout : Layout}

def fillOne (slots : List (Slot δ)) (k : String) (v : Value) (d : δ) : Option δ :=
  match slots.find? fun slot => slot.name = k with
  | none => some d
  | some slot => if slot.filled d then none else (slot.form.ofValue? v).map fun set => set d

theorem fillMembersCons (k : String) (v : Value) (ms : List (String × Value)) (d : δ) :
    fillMembers slots ((k,v)::ms) d = (fillOne slots k v d).bind (fillMembers slots ms) := by
  rw [fillMembers,fillOne]
  cases slots.find? fun slot => slot.name = k with
  | none => rfl
  | some slot =>
    dsimp only
    cases slot.filled d <;> cases slot.form.ofValue? v <;> rfl

theorem memberAgrees (agree : ∀ slot ∈ slots, slot.form.Agrees) (blank : layout.Blank)
    (k : String) {v : Value} (lawful : v.Lawful .skimming) (d : δ) (depth : Nat) {rest : List Char}
    (ends : Ends rest) :
    (readMember slots k d
        (':'::(layout.afterColon ++ (v.render layout depth ++ rest)))).toOption =
      (fillOne slots k v d).map fun d => (d,rest) := by
  unfold readMember fillOne
  cases found : slots.find? fun slot => slot.name = k with
  | none =>
    obtain ⟨w,_,reads⟩ := anyValueReads .skimming blank lawful depth
    simp [colonRead,toOptionBind,toOptionOk,reads _ _ blank.afterColon ends]
  | some slot =>
    have head := agree slot (List.mem_of_find?_eq_some found) blank lawful depth blank.afterColon
      ends
    cases filled : slot.filled d <;> cases form : slot.form.ofValue? v <;>
      simp [filled,colonRead,toOptionBind,toOptionOk,toOptionError,head,form]

theorem membersLength (layout : Layout) (depth : Nat) (ms : List (String × Value)) :
    ms.length ≤ (renderMembers layout depth ms).length := by
  induction ms with
  | nil => exact Nat.zero_le _
  | cons m ms ih =>
    simp only [renderMembers,List.length_cons,List.length_append]
    omega

theorem membersAgree (agree : ∀ slot ∈ slots, slot.form.Agrees) (blank : layout.Blank)
    (depth : Nat) {gap : List Char} (blankGap : gap.all isGap = true) (rest : List Char)
    {ms : List (String × Value)} (lawful : LawfulMembers .skimming ms) (d : δ) {bound : Nat}
    (room : ms.length < bound) :
    (readMembers slots bound d
        (renderMembers layout depth ms ++ (gap ++ '\x7d'::rest))).toOption =
      (fillMembers slots ms d).map fun d => (d,rest) := by
  induction ms generalizing bound d with
  | nil =>
    obtain ⟨bound,rfl⟩ := Nat.exists_eq_add_of_lt room
    have close : afterGap (gap ++ '\x7d'::rest) = '\x7d'::rest := gapSkipped blankGap _
    simp [renderMembers,readMembers,fillMembers,close,toOptionOk]
  | cons m ms ih =>
    obtain ⟨k,v⟩ := m
    obtain ⟨bound,rfl⟩ := Nat.exists_eq_add_of_lt room
    have endsMore : Ends (renderMembers layout depth ms ++ (gap ++ '\x7d'::rest)) :=
      endsMembers (endsClose blankGap (by simp) rest) depth ms
    obtain ⟨k',same,readsKey⟩ := keyReads .strict k
    have head := memberAgrees agree blank k lawful.1 d depth endsMore
    rw [fillMembersCons]
    simp only [renderMembers,List.cons_append,List.append_assoc,readMembers,commaStays,toOptionBind,
      readsKey _ _ (blank.gap depth),same rfl,toOptionOk,Option.bind_some,head]
    cases fillOne slots k v d with
    | none => rfl
    | some d => exact ih lawful.2 d (by simp; omega)

theorem firstMemberAgrees (agree : ∀ slot ∈ slots, slot.form.Agrees) (blank : layout.Blank)
    (depth : Nat) {gap before : List Char} (blankGap : gap.all isGap = true)
    (blankBefore : before.all isGap = true) (rest : List Char) {k : String} {v : Value}
    {ms : List (String × Value)} (lawful : LawfulMembers .skimming ((k,v)::ms)) (d : δ) :
    (match afterGap (before ++ (quoted k ++ ':'::(layout.afterColon ++ (v.render layout depth ++
        (renderMembers layout depth ms ++ (gap ++ '\x7d'::rest)))))) with
      | [] => .error .cutShort
      | '\x7d'::cs => .ok (d,cs)
      | cs => do
        let (k,cs) ← key .strict cs
        let (d,cs) ← readMember slots k d cs
        readMembers slots (cs.length + 1) d cs : Reading (δ × List Char)).toOption =
      (fillMembers slots ((k,v)::ms) d).map fun d => (d,rest) := by
  have endsMore : Ends (renderMembers layout depth ms ++ (gap ++ '\x7d'::rest)) :=
    endsMembers (endsClose blankGap (by simp) rest) depth ms
  obtain ⟨k',same,readsKey⟩ := keyReads .strict k
  have start : ∀ cs, afterGap (before ++ (quoted k ++ cs)) = quoted k ++ cs :=
    fun _ => gapSkipped blankBefore _
  have found := readsKey [] (':'::(layout.afterColon ++ (v.render layout depth ++
    (renderMembers layout depth ms ++ (gap ++ '\x7d'::rest))))) rfl
  have head := memberAgrees agree blank k lawful.1 d depth endsMore
  rw [fillMembersCons]
  simp only [List.nil_append,same rfl,quoted,List.cons_append] at found start
  simp only [quoted,List.cons_append,start]
  split
  · contradiction
  · rename_i closed
    exact absurd (List.cons.inj closed).1 (by decide)
  · simp only [toOptionBind,found,toOptionOk,Option.bind_some,head]
    cases fillOne slots k v d with
    | none => rfl
    | some d =>
      refine membersAgree agree blank depth blankGap rest lawful.2 d ?_
      have := membersLength layout depth ms
      rw [List.length_append]
      omega

theorem itemsAgree (agree : ∀ slot ∈ slots, slot.form.Agrees) (blank : layout.Blank)
    (depth : Nat) {gap : List Char} (blankGap : gap.all isGap = true) (rest : List Char)
    {vs : List Value} (lawful : LawfulItems .skimming vs) (d : δ) :
    (do
      let (d,cs) ← readItems slots d (renderItems layout depth vs ++ (gap ++ ']'::rest))
      let cs ← closeItems cs
      .ok (d,cs) : Reading (δ × List Char)).toOption =
      (fillItems slots vs d).map fun d => (d,rest) := by
  have close : afterGap (gap ++ ']'::rest) = ']'::rest := gapSkipped blankGap _
  induction slots generalizing vs d with
  | nil =>
    cases vs with
    | nil => simp [readItems,renderItems,closeItems,fillItems,close,toOptionBind,toOptionOk]
    | cons v vs =>
      simp [readItems,renderItems,closeItems,fillItems,commaStays,toOptionBind,toOptionOk,
        toOptionError]
  | cons slot slots ih =>
    cases vs with
    | nil => simp [readItems,renderItems,fillItems,close,toOptionBind,toOptionError]
    | cons v vs =>
      have endsMore : Ends (renderItems layout depth vs ++ (gap ++ ']'::rest)) :=
        endsItems (endsClose blankGap (by simp) rest) depth vs
      have head := agree slot List.mem_cons_self blank lawful.1 depth noGap endsMore
      rw [List.nil_append] at head
      simp only [renderItems,List.cons_append,List.append_assoc,readItems,fillItems,commaStays,
        toOptionBind,itemRead layout lawful.1 depth (blank.gap depth),toOptionOk,Option.bind_some,
        head]
      cases slot.form.ofValue? v with
      | none => rfl
      | some set =>
        have tail := ih (fun slot mem => agree slot (List.mem_cons_of_mem _ mem)) lawful.2 (set d)
        simpa only [toOptionBind,toOptionOk,Option.map_some,Option.bind_some] using tail

theorem noItemAgrees (slots : List (Slot δ)) (d : δ) (rest : List Char) :
    (do
      let (d,cs) ← readFirstItem slots d (']'::rest)
      let cs ← closeItems cs
      .ok (d,cs) : Reading (δ × List Char)).toOption =
      (fillItems slots [] d).map fun d => (d,rest) := by
  cases slots <;> rfl

theorem firstItemAgrees (agree : ∀ slot ∈ slots, slot.form.Agrees) (blank : layout.Blank)
    (depth : Nat) {gap before : List Char} (blankGap : gap.all isGap = true)
    (blankBefore : before.all isGap = true) (rest : List Char) {v : Value} {vs : List Value}
    (lawful : LawfulItems .skimming (v::vs)) (d : δ) :
    (do
      let (d,cs) ← readFirstItem slots d
        (before ++ (v.render layout depth ++ (renderItems layout depth vs ++ (gap ++ ']'::rest))))
      let cs ← closeItems cs
      .ok (d,cs) : Reading (δ × List Char)).toOption =
      (fillItems slots (v::vs) d).map fun d => (d,rest) := by
  have endsMore : Ends (renderItems layout depth vs ++ (gap ++ ']'::rest)) :=
    endsItems (endsClose blankGap (by simp) rest) depth vs
  obtain ⟨c,more,first,text,starts⟩ := gapStarts layout lawful.1 depth blankBefore
    (renderItems layout depth vs ++ (gap ++ ']'::rest))
  have opens := startOpens starts
  cases slots with
  | nil =>
    have notClosed := opens.2.1
    simp only [readFirstItem,fillItems,toOptionBind,toOptionOk,Option.bind_some,closeItems,first]
    split
    · contradiction
    · rename_i closed
      exact absurd (List.cons.inj closed).1 notClosed
    · rfl
  | cons slot slots =>
    have head := agree slot List.mem_cons_self blank lawful.1 depth noGap endsMore
    rw [List.nil_append,text] at head
    simp only [readFirstItem,fillItems,first]
    split
    · contradiction
    · rename_i closed
      exact absurd (List.cons.inj closed).1 opens.2.1
    · simp only [toOptionBind,head]
      cases slot.form.ofValue? v with
      | none => rfl
      | some set =>
        have tail := itemsAgree (fun slot mem => agree slot (List.mem_cons_of_mem _ mem)) blank
          depth blankGap rest lawful.2 (set d)
        simpa only [toOptionBind,toOptionOk,Option.map_some,Option.bind_some] using tail

end Records

theorem finishedAgrees {δ : Type} (finish : δ → Option α) (rest : List Char)
    {read : Reading (δ × List Char)} {d? : Option δ}
    (same : read.toOption = d?.map (fun d => (d,rest))) :
    (do
      let (d,cs) ← read
      match finish d with
      | some a => .ok (a,cs)
      | none => .error .shape : Reading (α × List Char)).toOption =
    (d?.bind finish).map fun a => (a,rest) := by
  rw [toOptionBind,same]
  cases d? with
  | none => rfl
  | some d => cases done : finish d <;> simp [done,toOptionOk,toOptionError]

theorem recordAgrees {δ : Type} {slots : List (Slot δ)} (agree : ∀ slot ∈ slots, slot.form.Agrees)
    (start : δ) (finish : δ → Option α) : (Form.record slots start finish).Agrees := by
  intro layout blank v lawful depth gap rest blankGap ends
  cases v with
  | array vs =>
    have bracket : ∀ cs, afterGap (gap ++ '['::cs) = '['::cs := fun _ => gapSkipped blankGap _
    cases vs with
    | nil =>
      simp only [Form.record,Value.render,List.cons_append,bracket]
      exact finishedAgrees finish rest (noItemAgrees slots start rest)
    | cons v vs =>
      simp only [Form.record,Value.render,List.cons_append,List.append_assoc,List.nil_append,
        bracket]
      exact finishedAgrees finish rest (firstItemAgrees agree blank (depth + 1) (blank.gap depth)
        (blank.gap (depth + 1)) rest lawful start)
  | object ms =>
    have brace : ∀ cs, afterGap (gap ++ '\x7b'::cs) = '\x7b'::cs := fun _ => gapSkipped blankGap _
    rcases ms with _ | ⟨⟨k,v⟩,ms⟩
    · simp only [Form.record,Value.render,List.cons_append,brace]
      exact finishedAgrees finish rest rfl
    · simp only [Form.record,Value.render,List.cons_append,List.append_assoc,List.nil_append,brace]
      exact finishedAgrees finish rest (firstMemberAgrees agree blank (depth + 1) (blank.gap depth)
        (blank.gap (depth + 1)) rest lawful start)
  | _ =>
    obtain ⟨c,more,start,_,starts⟩ := gapStarts layout lawful depth blankGap rest
    simp only [Form.record,start]
    split
    · rename_i bracket
      cases bracket
      simp [Value.StartsWith,startsNumber] at starts
    · rename_i brace
      cases brace
      simp [Value.StartsWith,startsNumber] at starts
    · rfl

theorem textAgrees {form : Form α} (agrees : form.Agrees) {layout : Layout} (blank : layout.Blank)
    {v : Value} (lawful : v.Lawful .skimming) :
    (form.ofText (v.render layout 0)).toOption = form.ofValue? v := by
  have found := agrees blank lawful 0 noGap endsNil
  rw [List.nil_append,List.append_nil] at found
  rw [Form.ofText,whole,toOptionBind,found]
  cases form.ofValue? v <;> rfl

theorem textExactly {form : Form α} (agrees : form.Agrees) {layout : Layout}
    (blank : layout.Blank) {v : Value} (lawful : v.Lawful .skimming) {a : α} :
    form.ofText (v.render layout 0) = .ok a ↔ form.ofValue? v = some a := by
  rw [← textAgrees agrees blank lawful]
  cases form.ofText (v.render layout 0) <;> simp [Except.toOption]

theorem textBack {form : Form α} (agrees : form.Agrees) {layout : Layout} (blank : layout.Blank)
    {v : Value} (lawful : v.Lawful .skimming) {a : α} (back : form.ofValue? v = some a) :
    form.ofText (v.render layout 0) = .ok a :=
  (textExactly agrees blank lawful).mpr back

end Form
end PaneWatch.Json
