import Mathlib.Data.List.Forall2
import Mathlib.Data.List.Nodup
import PaneWatch.Proofs.Json.FormText

/-! An object is read member by member into the slots of a draft. What a slot holds in the end
is settled by the values given for its name: none at all, or one that its form takes. So the
members may stand in any order, and those that name no slot may stand anywhere. -/
namespace PaneWatch.Json

variable {α δ : Type} {k : String} {v : Value} {ms ns : List (String × Value)}

def valuesOf (k : String) (ms : List (String × Value)) : List Value :=
  (ms.filter fun m => m.1 = k).map Prod.snd

theorem valuesOfOther {k' : String} (other : k' ≠ k) :
    valuesOf k ((k',v)::ms) = valuesOf k ms := by
  simp [valuesOf,other]

theorem valuesOfOwn : valuesOf k ((k,v)::ms) = v::valuesOf k ms := by
  simp [valuesOf]

theorem valuesOfGiven : v ∈ valuesOf k ms ↔ (k,v) ∈ ms := by
  simp [valuesOf]

theorem valuesOfAbsent : valuesOf k ms = [] ↔ ∀ v, (k,v) ∉ ms := by
  simp only [List.eq_nil_iff_forall_not_mem,valuesOfGiven]

theorem valuesOfCount : (valuesOf k ms).length = (ms.map Prod.fst).count k := by
  rw [valuesOf,List.length_map,List.count,List.countP_map,List.countP_eq_length_filter]
  rfl

def Once (k : String) (ms : List (String × Value)) : Prop := (ms.map Prod.fst).count k ≤ 1
instance (k ms) : Decidable (Once k ms) := by unfold Once; infer_instance

theorem valuesOfOnce : valuesOf k ms = [v] ↔ Once k ms ∧ (k,v) ∈ ms := by
  rw [Once,← valuesOfCount,← valuesOfGiven]
  constructor
  · intro only
    simp [only]
  · intro ⟨once,given⟩
    cases values : valuesOf k ms with
    | nil => simp [values] at given
    | cons w ws =>
      rw [values] at once given
      cases ws with
      | nil => rw [List.mem_singleton.mp given]
      | cons w' ws => simp at once

theorem Once.same {w : Value} (once : Once k ms) (given : (k,v) ∈ ms) (again : (k,w) ∈ ms) :
    v = w := by
  have first := valuesOfOnce.mpr ⟨once,given⟩
  have second := valuesOfOnce.mpr ⟨once,again⟩
  exact List.head_eq_of_cons_eq (first.symm.trans second)

theorem valuesOfKnown {keys : List String} (known : k ∈ keys)
    (perm : (ms.filter fun m => m.1 ∈ keys).Perm (ns.filter fun m => m.1 ∈ keys)) :
    (valuesOf k ms).Perm (valuesOf k ns) := by
  have only : ∀ ms : List (String × Value),
      valuesOf k ms = valuesOf k (ms.filter fun m => m.1 ∈ keys) := by
    intro ms
    unfold valuesOf
    rw [List.filter_filter]
    congr 2
    funext m
    by_cases named : m.1 = k <;> simp [named,known]
  rw [only ms,only ns]
  exact (perm.filter _).map _

namespace Form

def taken (form : Form α) : Option α → List Value → Option (Option α)
  | old,[] => some old
  | some _,_::_ => none
  | none,v::vs => (form.ofValue? v).bind fun a => taken form (some a) vs

theorem takenTwice (form : Form α) (v w : Value) (vs : List Value) :
    form.taken none (v::w::vs) = none := by
  cases first : form.ofValue? v <;> simp [taken,first]

theorem takenAnyOrder (form : Form α) {vs ws : List Value} (perm : vs.Perm ws) :
    form.taken none vs = form.taken none ws := by
  cases vs with
  | nil => rw [List.nil_perm.mp perm]
  | cons v vs =>
    cases vs with
    | nil => rw [List.singleton_perm.mp perm]
    | cons v' vs =>
      cases ws with
      | nil => exact absurd perm.length_eq (by simp)
      | cons w ws =>
        cases ws with
        | nil => exact absurd perm.length_eq (by simp)
        | cons w' ws => rw [takenTwice,takenTwice]

theorem takenExactly {form : Form α} {vs : List Value} {a? : Option α} :
    form.taken none vs = some a? ↔
      vs = [] ∧ a? = none ∨ ∃ v a, vs = [v] ∧ form.ofValue? v = some a ∧ a? = some a := by
  cases vs with
  | nil => simp [taken,eq_comm]
  | cons v vs =>
    cases vs with
    | nil => cases first : form.ofValue? v <;> simp [taken,first,eq_comm]
    | cons w vs => simp [takenTwice]

end Form

inductive NullOr (Stands : Value → α → Prop) : Value → Option α → Prop
  | null : NullOr Stands .null none
  | given {v : Value} {a : α} (stands : Stands v a) : NullOr Stands v (some a)

theorem nullableTakes {form : Form α} {Stands : Value → α → Prop}
    (takes : ∀ v a, form.ofValue? v = some a ↔ Stands v a) (notNull : ∀ a, ¬ Stands .null a)
    (v : Value) (a? : Option α) : form.nullable.ofValue? v = some a? ↔ NullOr Stands v a? := by
  by_cases null : v = .null
  · subst v
    constructor
    · intro taken
      cases taken
      exact .null
    · intro stands
      cases stands with
      | null => rfl
      | given stands => exact absurd stands (notNull _)
  · have other : form.nullable.ofValue? v = (form.ofValue? v).map some := by
      cases v <;> first | rfl | exact absurd rfl null
    rw [other,Option.map_eq_some_iff]
    constructor
    · intro ⟨a,taken,same⟩
      cases same
      exact .given ((takes v a).mp taken)
    · intro stands
      cases stands with
      | null => exact absurd rfl null
      | given stands => exact ⟨_,(takes _ _).mpr stands,rfl⟩

namespace Form

theorem stringTakes {v : Value} {s : String} : Form.string.ofValue? v = some s ↔ v = .string s := by
  cases v <;> simp [Form.string]

theorem boolTakes {v : Value} {b : Bool} : Form.bool.ofValue? v = some b ↔ v = .bool b := by
  cases v <;> simp [Form.bool]

theorem integerTakes {f : Int → Option α} {v : Value} {a : α} :
    (Form.integer.refine f).ofValue? v = some a ↔ ∃ i, v = .integer i ∧ f i = some a := by
  cases v <;> simp [refine,Form.integer]

theorem labelTakes {named : String → Option α} {v : Value} {a : α} :
    (Form.label named).ofValue? v = some a ↔
      ∃ k, named k = some a ∧ (v = .string k ∨ v = .object [(k,.null)]) := by
  constructor
  · intro taken
    simp only [Form.label] at taken
    split at taken
    · exact ⟨_,taken,.inl rfl⟩
    · exact ⟨_,taken,.inr rfl⟩
    · cases taken
  · intro stands
    obtain ⟨k,taken,stands⟩ := stands
    cases stands <;> subst v <;> exact taken

theorem listTakes {form : Form α} {Stands : Value → α → Prop}
    (takes : ∀ v a, form.ofValue? v = some a ↔ Stands v a) {v : Value} {as : List α} :
    form.list.ofValue? v = some as ↔ ∃ vs, v = .array vs ∧ List.Forall₂ Stands vs as := by
  have items : ∀ vs : List Value, ∀ as,
      vs.mapM form.ofValue? = some as ↔ List.Forall₂ Stands vs as := by
    intro vs
    induction vs with
    | nil => intro as; simp [eq_comm]
    | cons v vs ih =>
      intro as
      cases as with
      | nil =>
        cases first : form.ofValue? v <;> cases rest : vs.mapM form.ofValue? <;>
          simp [first,rest]
      | cons a as =>
        rw [List.forall₂_cons,← takes,← ih]
        cases first : form.ofValue? v <;> cases rest : vs.mapM form.ofValue? <;>
          simp [first,rest]
  cases v with
  | array vs => simp [Form.list,items]
  | _ => simp [Form.list]

end Form

structure DraftPart (δ : Type) where
  {α : Type}
  name : String
  get : δ → Option α
  set : α → δ → δ
  form : Form α

def DraftPart.slot (part : DraftPart δ) : Slot δ := Slot.of part.name part.get part.set part.form

theorem DraftPart.fillItemsCons (part : DraftPart δ) {slots : List (Slot δ)} {vs : List Value}
    {d e : δ} : Form.fillItems (part.slot::slots) vs d = some e ↔
      ∃ v a rest, vs = v::rest ∧ part.form.ofValue? v = some a ∧
        Form.fillItems slots rest (part.set a d) = some e := by
  cases vs with
  | nil => simp [Form.fillItems]
  | cons v vs =>
    cases first : part.form.ofValue? v <;>
      simp [Form.fillItems,DraftPart.slot,Slot.of,Form.refine,first]

theorem fillItemsNil {vs : List Value} {d e : δ} :
    Form.fillItems [] vs d = some e ↔ vs = [] ∧ d = e := by
  cases vs <;> simp [Form.fillItems]

/- The parts make up the draft, and none of them shares its name or its place with another.
None of them holds anything in a blank draft. -/
structure Separate (parts : List (DraftPart δ)) (blank : δ) : Prop where
  empty : ∀ part ∈ parts, part.get blank = none
  names : (parts.map DraftPart.name).Nodup
  own : ∀ part ∈ parts, ∀ a d, part.get (part.set a d) = some a
  others : ∀ part ∈ parts, ∀ other ∈ parts, other.name ≠ part.name →
    ∀ a d, other.get (part.set a d) = other.get d
  whole : ∀ d e, (∀ part ∈ parts, part.get d = part.get e) → d = e

variable {parts : List (DraftPart δ)} {blank : δ}

theorem Separate.named (separate : Separate parts blank) {part other : DraftPart δ}
    (mem : part ∈ parts) (memOther : other ∈ parts) (same : other.name = part.name) :
    other = part :=
  List.inj_on_of_nodup_map separate.names memOther mem same

theorem fillOneUnnamed (unnamed : ∀ part ∈ parts, part.name ≠ k) (d : δ) :
    Form.fillOne (parts.map DraftPart.slot) k v d = some d := by
  have absent : ((parts.map DraftPart.slot).find? fun slot => slot.name = k) = none := by
    rw [List.find?_map,Option.map_eq_none_iff,List.find?_eq_none]
    exact fun part mem named => unnamed part mem (of_decide_eq_true named)
  rw [Form.fillOne,absent]

theorem Separate.fillOneNamed (separate : Separate parts blank) {part : DraftPart δ}
    (mem : part ∈ parts) (d : δ) :
    Form.fillOne (parts.map DraftPart.slot) part.name v d =
      if (part.get d).isSome then none
      else (part.form.ofValue? v).map fun a => part.set a d := by
  have found : ((parts.map DraftPart.slot).find? fun slot => slot.name = part.name) =
      some part.slot := by
    rw [List.find?_map]
    cases found : parts.find? ((fun slot => decide (slot.name = part.name)) ∘ DraftPart.slot) with
    | none => exact absurd (decide_eq_true rfl) (List.find?_eq_none.mp found part mem)
    | some other =>
      have holds := List.find?_some found
      have same : other.name = part.name := of_decide_eq_true holds
      rw [separate.named mem (List.mem_of_find?_eq_some found) same]
      rfl
  rw [Form.fillOne,found]
  cases held : part.get d with
  | some a => simp [DraftPart.slot,Slot.of,held]
  | none =>
    cases first : part.form.ofValue? v <;> simp [DraftPart.slot,Slot.of,Form.refine,held,first]

theorem Separate.oneRefused (separate : Separate parts blank) {d : δ}
    (refused : Form.fillOne (parts.map DraftPart.slot) k v d = none) :
    ∃ part ∈ parts, ∀ ms,
      part.form.taken (part.get d) (valuesOf part.name ((k,v)::ms)) = none := by
  by_cases named : ∃ part ∈ parts, part.name = k
  · obtain ⟨part,mem,rfl⟩ := named
    rw [separate.fillOneNamed mem] at refused
    refine ⟨part,mem,fun ms => ?_⟩
    rw [valuesOfOwn]
    cases held : part.get d with
    | some a => rfl
    | none =>
      rw [held] at refused
      have first : part.form.ofValue? v = none := by simpa using refused
      rw [Form.taken,first]
      rfl
  · rw [fillOneUnnamed fun part mem same => named ⟨part,mem,same⟩] at refused
    cases refused

theorem Separate.oneTaken (separate : Separate parts blank) {d e : δ}
    (filled : Form.fillOne (parts.map DraftPart.slot) k v d = some e) {part : DraftPart δ}
    (mem : part ∈ parts) :
    part.form.taken (part.get d) (valuesOf part.name ((k,v)::ms)) =
      part.form.taken (part.get e) (valuesOf part.name ms) := by
  by_cases named : ∃ part ∈ parts, part.name = k
  · obtain ⟨own,memOwn,rfl⟩ := named
    rw [separate.fillOneNamed memOwn] at filled
    cases held : own.get d with
    | some a => simp [held] at filled
    | none =>
      cases first : own.form.ofValue? v with
      | none => simp [held,first] at filled
      | some a =>
        simp only [held,first,Option.isSome_none,Bool.false_eq_true,↓reduceIte,
          Option.map_some,Option.some.injEq] at filled
        subst e
        by_cases same : part.name = own.name
        · cases separate.named memOwn mem same
          rw [valuesOfOwn,held,Form.taken,first,separate.own part mem]
          rfl
        · rw [valuesOfOther (Ne.symm same),separate.others own memOwn part mem same]
  · have unnamed : ∀ part ∈ parts, part.name ≠ k := fun part mem same =>
      named ⟨part,mem,same⟩
    rw [fillOneUnnamed unnamed] at filled
    cases filled
    rw [valuesOfOther (unnamed part mem).symm]

theorem Separate.fillMembersExactly (separate : Separate parts blank) {d e : δ} :
    Form.fillMembers (parts.map DraftPart.slot) ms d = some e ↔
      ∀ part ∈ parts,
        part.form.taken (part.get d) (valuesOf part.name ms) = some (part.get e) := by
  induction ms generalizing d with
  | nil =>
    constructor
    · intro filled
      cases filled
      exact fun _ _ => rfl
    · intro same
      exact congrArg some (separate.whole d e fun part mem => Option.some.inj (same part mem))
  | cons m ms ih =>
    obtain ⟨k,v⟩ := m
    rw [Form.fillMembersCons]
    cases step : Form.fillOne (parts.map DraftPart.slot) k v d with
    | none =>
      obtain ⟨part,mem,refused⟩ := separate.oneRefused step
      refine iff_of_false nofun fun all => ?_
      cases (refused ms).symm.trans (all part mem)
    | some d' =>
      rw [Option.bind_some,ih]
      exact forall₂_congr fun part mem => by rw [separate.oneTaken step mem]

theorem Separate.recordExactly (separate : Separate parts blank) {finish : δ → Option α}
    {a : α} : (Form.record (parts.map DraftPart.slot) blank finish).ofValue? (.object ms) = some a ↔
      ∃ e, (∀ part ∈ parts,
        part.form.taken none (valuesOf part.name ms) = some (part.get e)) ∧ finish e = some a := by
  simp only [Form.record,Option.bind_eq_some_iff,separate.fillMembersExactly]
  refine exists_congr fun e => and_congr_left fun _ => forall₂_congr fun part mem => ?_
  rw [separate.empty part mem]

theorem Separate.recordAnyOrder (separate : Separate parts blank) (finish : δ → Option α)
    (perm : (ms.filter fun m => m.1 ∈ parts.map DraftPart.name).Perm
      (ns.filter fun m => m.1 ∈ parts.map DraftPart.name)) :
    (Form.record (parts.map DraftPart.slot) blank finish).ofValue? (.object ms) =
      (Form.record (parts.map DraftPart.slot) blank finish).ofValue? (.object ns) := by
  ext a
  rw [separate.recordExactly,separate.recordExactly]
  refine exists_congr fun e => and_congr_left fun _ => forall₂_congr fun part mem => ?_
  rw [Form.takenAnyOrder part.form (valuesOfKnown (List.mem_map_of_mem mem) perm)]

theorem takenRequired {form : Form α} {Stands : Value → α → Prop}
    (takes : ∀ v a, form.ofValue? v = some a ↔ Stands v a) {a : α} :
    form.taken none (valuesOf k ms) = some (some a) ↔
      Once k ms ∧ ∃ v, (k,v) ∈ ms ∧ Stands v a := by
  rw [Form.takenExactly]
  constructor
  · intro taken
    rcases taken with ⟨_,none⟩ | ⟨v,b,only,read,same⟩
    · cases none
    · cases same
      obtain ⟨once,given⟩ := valuesOfOnce.mp only
      exact ⟨once,v,given,(takes v a).mp read⟩
  · intro ⟨once,v,given,stands⟩
    exact .inr ⟨v,a,valuesOfOnce.mpr ⟨once,given⟩,(takes v a).mpr stands,rfl⟩

def MayShow (k : String) (Stands : Value → α → Prop) (ms : List (String × Value))
    (a? : Option α) : Prop :=
  (∃ v, (k,v) ∈ ms ∧ NullOr Stands v a?) ∨ (∀ v, (k,v) ∉ ms) ∧ a? = none

theorem takenOptional {form : Form (Option α)} {Stands : Value → α → Prop}
    (takes : ∀ v a?, form.ofValue? v = some a? ↔ NullOr Stands v a?) {a? : Option α} :
    (∃ held, form.taken none (valuesOf k ms) = some held ∧ held.join = a?) ↔
      Once k ms ∧ MayShow k Stands ms a? := by
  constructor
  · intro ⟨held,taken,same⟩
    subst a?
    rcases Form.takenExactly.mp taken with ⟨absent,rfl⟩ | ⟨v,b,only,read,rfl⟩
    · have few : Once k ms := by simp [Once,← valuesOfCount,absent]
      exact ⟨few,.inr ⟨valuesOfAbsent.mp absent,rfl⟩⟩
    · obtain ⟨once,given⟩ := valuesOfOnce.mp only
      exact ⟨once,.inl ⟨v,given,(takes v b).mp read⟩⟩
  · intro ⟨once,shown⟩
    rcases shown with ⟨v,given,stands⟩ | ⟨absent,rfl⟩
    · have only := valuesOfOnce.mpr ⟨once,given⟩
      exact ⟨some a?,Form.takenExactly.mpr (.inr ⟨v,a?,only,(takes v a?).mpr stands,rfl⟩),rfl⟩
    · exact ⟨none,Form.takenExactly.mpr (.inl ⟨valuesOfAbsent.mpr absent,rfl⟩),rfl⟩

theorem mayShowSome {Stands : Value → α → Prop} (once : Once k ms) :
    (∃ a?, MayShow k Stands ms a?) ↔ ∀ v, (k,v) ∈ ms → v = .null ∨ ∃ a, Stands v a := by
  constructor
  · intro ⟨a?,shown⟩ v here
    rcases shown with ⟨w,given,stands⟩ | ⟨absent,_⟩
    · cases once.same given here
      cases stands with
      | null => exact .inl rfl
      | given stands => exact .inr ⟨_,stands⟩
    · exact absurd here (absent v)
  · intro all
    by_cases present : ∃ v, (k,v) ∈ ms
    · obtain ⟨v,given⟩ := present
      rcases all v given with rfl | ⟨a,stands⟩
      · exact ⟨none,.inl ⟨_,given,.null⟩⟩
      · exact ⟨some a,.inl ⟨v,given,.given stands⟩⟩
    · exact ⟨none,.inr ⟨fun v given => present ⟨v,given⟩,rfl⟩⟩

def Value.WellFormed (v : Value) : Prop := v.Lawful .skimming

/- What the texts of objects are read as: accepted just when the members are of the shape, and
then as what they show, in whatever order they stand and whatever others stand between them.
The values themselves, which cannot repeat a key, are read as their texts are. -/
structure DecodesObjects (form : Form α) (keys : List String)
    (Shaped : List (String × Value) → Prop) (Shows : List (String × Value) → α → Prop) :
    Prop where
  accepts : ∀ {layout : Layout} {ms : List (String × Value)}, layout.Blank →
    (Value.object ms).WellFormed →
    ((∃ a, form.ofText ((Value.object ms).render layout 0) = .ok a) ↔ Shaped ms)
  shows : ∀ {layout : Layout} {ms : List (String × Value)}, layout.Blank →
    (Value.object ms).WellFormed → ∀ a,
    (form.ofText ((Value.object ms).render layout 0) = .ok a ↔ Shows ms a)
  anyOrder : ∀ {layout other : Layout} {ms ns : List (String × Value)}, layout.Blank →
    other.Blank → (Value.object ms).WellFormed → (Value.object ns).WellFormed →
    (ms.filter fun m => m.1 ∈ keys).Perm (ns.filter fun m => m.1 ∈ keys) →
    (form.ofText ((Value.object ms).render layout 0)).toOption =
      (form.ofText ((Value.object ns).render other 0)).toOption
  values : ∀ {layout : Layout} {ms : List (String × Value)}, layout.Blank →
    (Value.object ms).WellFormed → (ms.map Prod.fst).Nodup →
    form.ofValue? (.object ms) = (form.ofText ((Value.object ms).render layout 0)).toOption

theorem decodesObjects {form : Form α} {keys : List String}
    {Shaped : List (String × Value) → Prop} {Shows : List (String × Value) → α → Prop}
    (agrees : form.Agrees) (exactly : ∀ ms a, form.ofValue? (.object ms) = some a ↔ Shows ms a)
    (shaped : ∀ ms, (∃ a, Shows ms a) ↔ Shaped ms)
    (anyOrder : ∀ {ms ns : List (String × Value)},
      (ms.filter fun m => m.1 ∈ keys).Perm (ns.filter fun m => m.1 ∈ keys) →
      form.ofValue? (.object ms) = form.ofValue? (.object ns)) :
    DecodesObjects form keys Shaped Shows where
  accepts blank lawful := by simp only [Form.textExactly agrees blank lawful,exactly,shaped]
  shows blank lawful a := (Form.textExactly agrees blank lawful).trans (exactly _ a)
  anyOrder blank blankOther lawful lawfulOther perm := by
    rw [Form.textAgrees agrees blank lawful,Form.textAgrees agrees blankOther lawfulOther,
      anyOrder perm]
  values blank lawful _ := (Form.textAgrees agrees blank lawful).symm

end PaneWatch.Json
