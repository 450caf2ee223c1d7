import Mathlib.Computability.Language
import PaneWatch.Proofs.Text.Numeral

/-! What a search finds, said apart from how it searches. A pattern says what may stand at the
front of a text and what it shows there; its leftmost occurrence is the one that begins before
all others. The lead of a pattern is a language, and a scanner reads it word by word without
going back: what may follow a part never looks like more of that part. -/
namespace PaneWatch.Text

/- What stands at the front of a text, with what is picked out of it. -/
abbrev Pattern (α : Type) := List Char → α → Prop

section Search

variable {α β : Type} {here : List Char → Option α} {At : Pattern α} {text : List Char} {a : α}

/- A place in a text is told by the rest of the text from there on. -/
def Leftmost (At : Pattern α) (text : List Char) (a : α) : Prop :=
  ∃ rest, rest <:+ text ∧ At rest a ∧
    ∀ earlier, earlier <:+ text → rest.length < earlier.length → ∀ b, ¬ At earlier b

def Nowhere (At : Pattern α) (text : List Char) : Prop := ∀ rest, rest <:+ text → ∀ a, ¬ At rest a

def Recognises (here : List Char → Option α) (At : Pattern α) : Prop :=
  ∀ cs a, here cs = some a ↔ At cs a

theorem leftmostFront (found : At text a) : Leftmost At text a := by
  refine ⟨text,List.suffix_refl text,found,fun earlier suffix longer => ?_⟩
  exact absurd suffix.length_le (Nat.not_le.mpr longer)

theorem leftmostLater {c : Char} (absent : ∀ b, ¬ At (c::text) b) :
    Leftmost At (c::text) a ↔ Leftmost At text a := by
  constructor
  · rintro ⟨rest,suffix,found,first⟩
    rcases List.suffix_cons_iff.mp suffix with rfl | inside
    · exact absurd found (absent a)
    · refine ⟨rest,inside,found,fun earlier later => first earlier ?_⟩
      exact later.trans (List.suffix_cons c text)
  · rintro ⟨rest,suffix,found,first⟩
    refine ⟨rest,suffix.trans (List.suffix_cons c text),found,fun earlier later longer => ?_⟩
    rcases List.suffix_cons_iff.mp later with rfl | inside
    · exact absent
    · exact first earlier inside longer

theorem Recognises.leftmost (exact : Recognises here At) (text : List Char) (a : α) :
    leftmost? here text = some a ↔ Leftmost At text a := by
  induction text with
  | nil =>
    refine (exact [] a).trans ⟨leftmostFront,fun ⟨rest,suffix,found,_⟩ => ?_⟩
    rwa [List.suffix_nil.mp suffix] at found
  | cons c text ih =>
    rw [leftmost?]
    cases shown : here (c::text) with
    | none =>
      have absent : ∀ b, ¬ At (c::text) b := fun b found => by
        rw [(exact _ b).mpr found] at shown
        cases shown
      exact ih.trans (leftmostLater absent).symm
    | some b =>
      have found := (exact _ b).mp shown
      refine ⟨fun same => leftmostFront (Option.some.inj same ▸ found),?_⟩
      rintro ⟨rest,suffix,other,first⟩
      rcases List.suffix_cons_iff.mp suffix with rfl | inside
      · exact shown.symm.trans ((exact _ a).mpr other)
      · have shorter : rest.length < (c::text).length := Nat.lt_succ_of_le inside.length_le
        exact absurd found (first _ (List.suffix_refl _) shorter b)

theorem Recognises.nowhere (exact : Recognises here At) (text : List Char) :
    leftmost? here text = none ↔ Nowhere At text := by
  induction text with
  | nil =>
    rw [leftmost?,Option.eq_none_iff_forall_ne_some]
    refine ⟨fun absent rest suffix a found => ?_,fun absent a shown => ?_⟩
    · rw [List.suffix_nil.mp suffix] at found
      exact absent a ((exact [] a).mpr found)
    · exact absent [] (List.suffix_refl []) a ((exact [] a).mp shown)
  | cons c text ih =>
    rw [leftmost?]
    cases shown : here (c::text) with
    | none =>
      refine ih.trans ⟨fun absent rest suffix a found => ?_,fun absent rest suffix => ?_⟩
      · rcases List.suffix_cons_iff.mp suffix with rfl | inside
        · rw [(exact _ a).mpr found] at shown
          cases shown
        · exact absent rest inside a found
      · exact absent rest (suffix.trans (List.suffix_cons c text))
    | some b =>
      refine ⟨fun same => (by cases same),fun absent => ?_⟩
      exact absurd ((exact _ b).mp shown) (absent _ (List.suffix_refl _) b)

theorem leftmostBehind {front rest : List Char} (absent : Nowhere At front) (found : At rest a)
    (within : ∀ part b, part ≠ [] → At (part ++ rest) b → At part b) :
    Leftmost At (front ++ rest) a := by
  refine ⟨rest,List.suffix_append front rest,found,fun earlier ⟨before,same⟩ longer b other => ?_⟩
  rcases List.append_eq_append_iff.mp same with ⟨part,inside,rfl⟩ | ⟨more,_,short⟩
  · have nonempty : part ≠ [] := by
      rintro rfl
      exact absurd longer (Nat.lt_irrefl _)
    exact absent part ⟨before,inside.symm⟩ b (within part b nonempty other)
  · rw [short,List.length_append] at longer
    omega

theorem wordWithin {word rest part more : List Char} {c : Char} (nonempty : part ≠ [])
    (same : part ++ c::more = word ++ rest) (once : c ∉ word.tail) : word <+: part := by
  cases List.append_eq_append_iff.mp same with
  | inl beyond =>
    obtain ⟨excess,inside,outside⟩ := beyond
    cases excess with
    | nil => rw [inside,List.append_nil]
    | cons d excess =>
      obtain ⟨rfl,_⟩ := List.cons.inj outside
      rw [inside,List.tail_append_of_ne_nil nonempty] at once
      exact absurd (List.mem_append_right part.tail List.mem_cons_self) once
  | inr before =>
    obtain ⟨left,inside,_⟩ := before
    exact ⟨left,inside.symm⟩

/- What is found stays found when the text goes on, and a find that begins in front of another
needs no text behind that one. -/
structure Final (At : Pattern α) : Prop where
  stays : ∀ {cs a} (more : List Char), At cs a → At (cs ++ more) a
  within : ∀ {part rest more a b}, part ≠ [] → At rest a → At (part ++ (rest ++ more)) b →
    At (part ++ rest) b

theorem Final.opened (opens : Char → Prop)
    (stays : ∀ {cs a} (more : List Char), At cs a → At (cs ++ more) a)
    (starts : ∀ {cs a}, At cs a → ∃ c more, cs = c::more ∧ opens c)
    (within : ∀ {part c more b}, part ≠ [] → opens c → At (part ++ c::more) b → At part b) :
    Final At where
  stays := stays
  within := by
    intro part rest more a b nonempty found other
    obtain ⟨c,tail,same,opening⟩ := starts found
    rw [same] at other ⊢
    exact stays _ (within nonempty opening other)

theorem Final.leftmost (final : Final At) (found : Leftmost At text a) (more : List Char) :
    Leftmost At (text ++ more) a := by
  obtain ⟨rest,⟨front,same⟩,found,first⟩ := found
  have place : rest ++ more <:+ text ++ more := ⟨front,by rw [← same,List.append_assoc]⟩
  refine ⟨rest ++ more,place,final.stays more found,?_⟩
  intro earlier suffix longer b other
  obtain ⟨part,rfl⟩ := List.suffix_of_suffix_length_le place suffix (Nat.le_of_lt longer)
  have nonempty : part ≠ [] := by
    intro none
    simp [none] at longer
  obtain ⟨before,whole⟩ := suffix
  have inside : before ++ (part ++ rest) = text := by
    simp only [← List.append_assoc] at whole
    rw [← List.append_assoc,List.append_cancel_right whole]
  have sooner : rest.length < (part ++ rest).length := by
    have := List.length_pos_of_ne_nil nonempty
    rw [List.length_append]
    omega
  exact first _ ⟨before,inside⟩ sooner b (final.within nonempty found other)

theorem Final.kept (final : Final At) (exact : Recognises here At)
    (found : leftmost? here text = some a) (more : List Char) :
    leftmost? here (text ++ more) = some a :=
  (exact.leftmost _ a).mpr (final.leftmost ((exact.leftmost text a).mp found) more)

theorem leftmostMapped (view : α → β) (here : List Char → Option α) (text : List Char) :
    leftmost? (fun cs => (here cs).map view) text = (leftmost? here text).map view := by
  induction text with
  | nil => rfl
  | cons c text ih =>
    rw [leftmost?,leftmost?]
    cases here (c::text) with
    | none => exact ih
    | some a => rfl

end Search

section Languages

def oneOf (P : Char → Bool) : Language Char := {cs | ∃ c, P c = true ∧ cs = [c]}

def manyOf (P : Char → Bool) : Language Char := {cs | ∀ c ∈ cs, P c = true}

def someOf (P : Char → Bool) : Language Char := {cs | cs ≠ [] ∧ ∀ c ∈ cs, P c = true}

def anyCase (word : List Char) : Language Char := {cs | cs.map Char.toLower = word}

def maybe (l : Language Char) : Language Char := 1 + l

def Starts (P : Char → Prop) (cs : List Char) : Prop := ∃ c ∈ cs.head?, P c

theorem startsCons {P : Char → Prop} {c : Char} {cs : List Char} : Starts P (c::cs) ↔ P c := by
  simp [Starts]

theorem startsAppend {P : Char → Prop} {cs : List Char} (starts : Starts P cs)
    (rest : List Char) : Starts P (cs ++ rest) := by
  obtain ⟨c,first,holds⟩ := starts
  exact ⟨c,by rw [List.head?_append,first]; rfl,holds⟩

theorem startsAs {P Q : Char → Prop} {cs : List Char} (starts : Starts P cs)
    (implies : ∀ c, P c → Q c) : Starts Q cs := by
  obtain ⟨c,first,holds⟩ := starts
  exact ⟨c,first,implies c holds⟩

theorem oneStarts {P : Char → Bool} {cs : List Char} (mem : cs ∈ oneOf P) :
    Starts (fun c => P c = true) cs := by
  obtain ⟨c,holds,rfl⟩ := mem
  exact startsCons.mpr holds

theorem someStarts {P : Char → Bool} {cs : List Char} (mem : cs ∈ someOf P) :
    Starts (fun c => P c = true) cs := by
  obtain ⟨nonempty,all⟩ := mem
  cases cs with
  | nil => contradiction
  | cons c cs => exact startsCons.mpr (all c List.mem_cons_self)

theorem casedStarts {w : Char} {word cs : List Char} (mem : cs ∈ anyCase (w::word)) :
    Starts (fun c => c.toLower = w) cs := by
  cases cs with
  | nil => cases mem
  | cons c cs => exact startsCons.mpr (List.cons.inj mem).1

end Languages

section Steps

variable {α : Type} {here : List Char → Option α} {At : Pattern α}
  {step : List Char → Option (List Char)} {l m : Language Char} {Rest : List Char → Prop}

def Then (l : Language Char) (At : Pattern α) : Pattern α :=
  fun cs a => ∃ w ∈ l, ∃ rest, cs = w ++ rest ∧ At rest a

theorem thenMul (l m : Language Char) (At : Pattern α) : Then (l * m) At = Then l (Then m At) := by
  funext cs a
  refine propext ⟨?_,?_⟩
  · rintro ⟨w,mem,rest,rfl,found⟩
    obtain ⟨u,inL,v,inM,rfl⟩ := Language.mem_mul.mp mem
    exact ⟨u,inL,v ++ rest,List.append_assoc u v rest,v,inM,rest,rfl,found⟩
  · rintro ⟨u,inL,_,rfl,v,inM,rest,rfl,found⟩
    exact ⟨u ++ v,Language.append_mem_mul inL inM,rest,(List.append_assoc u v rest).symm,found⟩

theorem thenMaybe {cs : List Char} {a : α} :
    Then (maybe l) At cs a ↔ At cs a ∨ Then l At cs a := by
  constructor
  · rintro ⟨w,rfl | mem,rest,rfl,found⟩
    · exact .inl found
    · exact .inr ⟨w,mem,rest,rfl,found⟩
  · rintro (found | ⟨w,mem,rest,same,found⟩)
    · exact ⟨[],.inl rfl,cs,rfl,found⟩
    · exact ⟨w,.inr mem,rest,same,found⟩

theorem thenStarts {P : Char → Prop} {cs : List Char} {a : α} (front : ∀ w ∈ l, Starts P w)
    (found : Then l At cs a) : Starts P cs := by
  obtain ⟨w,mem,rest,rfl,_⟩ := found
  exact startsAppend (front w mem) rest

/- Takes a word of the language off a text if what is left is as asked. -/
structure Takes (step : List Char → Option (List Char)) (l : Language Char)
    (Rest : List Char → Prop) : Prop where
  sound : ∀ {cs rest}, step cs = some rest → ∃ w ∈ l, cs = w ++ rest
  complete : ∀ {w rest}, w ∈ l → Rest rest → step (w ++ rest) = some rest

namespace Takes

theorem before (takes : Takes step l Rest) (exact : Recognises here At)
    (follows : ∀ cs a, At cs a → Rest cs) :
    Recognises (fun cs => (step cs).bind here) (Then l At) := by
  intro cs a
  change (step cs).bind here = some a ↔ _
  constructor
  · intro shown
    obtain ⟨rest,taken,found⟩ := Option.bind_eq_some_iff.mp shown
    obtain ⟨w,mem,rfl⟩ := takes.sound taken
    exact ⟨w,mem,rest,rfl,(exact rest a).mp found⟩
  · rintro ⟨w,mem,rest,rfl,found⟩
    rw [takes.complete mem (follows rest a found)]
    exact (exact rest a).mpr found

theorem andThen {next : List Char → Option (List Char)} {More : List Char → Prop}
    (takes : Takes step l Rest) (last : Takes next m More)
    (follows : ∀ w ∈ m, ∀ rest, More rest → Rest (w ++ rest)) :
    Takes (fun cs => (step cs).bind next) (l * m) More where
  sound := by
    intro cs rest taken
    obtain ⟨middle,first,second⟩ := Option.bind_eq_some_iff.mp taken
    obtain ⟨u,inL,rfl⟩ := takes.sound first
    obtain ⟨v,inM,rfl⟩ := last.sound second
    exact ⟨u ++ v,Language.append_mem_mul inL inM,(List.append_assoc u v rest).symm⟩
  complete := by
    intro w rest mem more
    obtain ⟨u,inL,v,inM,rfl⟩ := Language.mem_mul.mp mem
    rw [List.append_assoc,takes.complete inL (follows v inM rest more)]
    exact last.complete inM more

/- What is left must not begin with a word of the language, as such a word would be taken. -/
theorem optional (takes : Takes step l Rest) :
    Takes (fun cs => some ((step cs).getD cs)) (maybe l)
      fun rest => Rest rest ∧ step rest = none where
  sound := by
    intro cs rest taken
    cases first : step cs with
    | none =>
      rw [first] at taken
      cases taken
      exact ⟨[],.inl rfl,rfl⟩
    | some left =>
      rw [first] at taken
      cases taken
      obtain ⟨w,mem,same⟩ := takes.sound first
      exact ⟨w,.inr mem,same⟩
  complete := by
    rintro w rest (rfl | mem) ⟨more,other⟩
    · rw [List.nil_append,other]
      rfl
    · rw [takes.complete mem more]
      rfl

end Takes

def afterSome? (P : Char → Bool) : List Char → Option (List Char)
  | c::cs => if P c then some (cs.dropWhile P) else none
  | [] => none

def afterOne? (P : Char → Bool) : List Char → Option (List Char)
  | c::cs => if P c then some cs else none
  | [] => none

theorem someThen (P : Char → Bool) (next : List Char → Option α) (cs : List Char) :
    (afterSome? P cs).bind next =
      match cs with
      | c::cs => if P c then next (cs.dropWhile P) else none
      | [] => none := by
  cases cs with
  | nil => rfl
  | cons c cs => cases holds : P c <;> simp [afterSome?,holds]

theorem oneThen (P : Char → Bool) (next : List Char → Option α) (cs : List Char) :
    (afterOne? P cs).bind next =
      match cs with
      | c::cs => if P c then next cs else none
      | [] => none := by
  cases cs with
  | nil => rfl
  | cons c cs => cases holds : P c <;> simp [afterOne?,holds]

theorem dropRun {P : Char → Bool} {w rest : List Char} (all : ∀ c ∈ w, P c = true)
    (stop : Starts (fun c => P c = false) rest) : (w ++ rest).dropWhile P = rest := by
  obtain ⟨c,first,other⟩ := stop
  obtain ⟨cs,rfl⟩ := List.head?_eq_some_iff.mp first
  rw [List.dropWhile_append_of_pos all,List.dropWhile_cons_of_neg (by simp [other])]

theorem manyTaken (P : Char → Bool) :
    Takes (fun cs => some (cs.dropWhile P)) (manyOf P) (Starts fun c => P c = false) where
  sound := by
    intro cs rest taken
    cases taken
    exact ⟨cs.takeWhile P,fun c mem => List.mem_takeWhile_imp mem,
      (List.takeWhile_append_dropWhile).symm⟩
  complete := fun mem stop => congrArg some (dropRun mem stop)

theorem oneTaken (P : Char → Bool) : Takes (afterOne? P) (oneOf P) fun _ => True where
  sound := by
    intro cs rest taken
    cases cs with
    | nil => cases taken
    | cons c cs =>
      cases holds : P c <;> simp only [afterOne?,holds] at taken <;> cases taken
      exact ⟨[c],⟨c,holds,rfl⟩,rfl⟩
  complete := by
    rintro _ rest ⟨c,holds,rfl⟩ _
    exact if_pos holds

theorem someTaken (P : Char → Bool) :
    Takes (afterSome? P) (someOf P) (Starts fun c => P c = false) where
  sound := by
    intro cs rest taken
    cases cs with
    | nil => cases taken
    | cons c cs =>
      cases holds : P c <;> simp only [afterSome?,holds] at taken <;> cases taken
      refine ⟨c::cs.takeWhile P,⟨List.cons_ne_nil _ _,?_⟩,?_⟩
      · exact List.forall_mem_cons.mpr ⟨holds,fun d mem => List.mem_takeWhile_imp mem⟩
      · rw [List.cons_append,List.takeWhile_append_dropWhile]
  complete := by
    rintro w rest ⟨nonempty,all⟩ stop
    obtain ⟨c,w,rfl⟩ := List.exists_cons_of_ne_nil nonempty
    obtain ⟨holds,all⟩ := List.forall_mem_cons.mp all
    exact (if_pos holds).trans (congrArg some (dropRun all stop))

theorem blanksTaken :
    Takes afterBlanks? (someOf isBlank) (Starts fun c => isBlank c = false) := by
  have same : afterBlanks? = afterSome? isBlank := by
    funext cs
    cases cs <;> rfl
  exact same ▸ someTaken isBlank

theorem wordTaken (word : List Char) : Takes (afterWord? word) {word} fun _ => True where
  sound := by
    induction word with
    | nil => exact fun taken => ⟨[],rfl,Option.some.inj taken⟩
    | cons w word ih =>
      intro cs rest taken
      cases cs with
      | nil => cases taken
      | cons c cs =>
        by_cases same : c = w
        · rw [afterWord?,if_pos same] at taken
          obtain ⟨_,rfl,rfl⟩ := ih taken
          exact ⟨_,rfl,by rw [same]; rfl⟩
        · rw [afterWord?,if_neg same] at taken
          cases taken
  complete := by
    intro w rest same _
    rw [show w = word from same]
    clear same
    induction word with
    | nil => rfl
    | cons w word ih => exact (if_pos rfl).trans ih

theorem caseTaken (word : List Char) : Takes (afterAnyCase? word) (anyCase word) fun _ => True where
  sound := by
    induction word with
    | nil => exact fun taken => ⟨[],rfl,Option.some.inj taken⟩
    | cons w word ih =>
      intro cs rest taken
      cases cs with
      | nil => cases taken
      | cons c cs =>
        by_cases same : c.toLower = w
        · rw [afterAnyCase?,if_pos same] at taken
          obtain ⟨u,mem,rfl⟩ := ih taken
          exact ⟨c::u,congrArg₂ List.cons same mem,rfl⟩
        · rw [afterAnyCase?,if_neg same] at taken
          cases taken
  complete := by
    rintro cs rest rfl _
    induction cs with
    | nil => rfl
    | cons c cs ih => exact (if_pos rfl).trans ih

theorem noCase {w : Char} {word cs : List Char} (other : Starts (fun c => c.toLower ≠ w) cs) :
    afterAnyCase? (w::word) cs = none := by
  obtain ⟨c,first,differs⟩ := other
  obtain ⟨rest,rfl⟩ := List.head?_eq_some_iff.mp first
  exact if_neg differs

end Steps

section Classes

theorem letterOfCase {c w : Char} (lower : w.isLower = true) (same : c.toLower = w) :
    c.isAlpha = true := by
  refine Bool.or_eq_true_iff.mpr ?_
  by_cases upper : c.val ≥ 'A'.val ∧ c.val ≤ 'Z'.val
  · exact .inl (decide_eq_true upper)
  · have kept : c.toLower = c := dif_neg upper
    rw [← same,kept] at lower
    exact .inr lower

theorem letterRange {c : Char} (letter : c.isAlpha = true) : 0x41 ≤ c.toNat ∧ c.toNat ≤ 0x7A := by
  rcases Bool.or_eq_true_iff.mp letter with upper | lower
  · obtain ⟨low,high⟩ := of_decide_eq_true upper
    exact ⟨low,Nat.le_trans high (by decide)⟩
  · obtain ⟨low,high⟩ := Bool.and_eq_true_iff.mp lower
    exact ⟨Nat.le_trans (by decide) (of_decide_eq_true low),of_decide_eq_true high⟩

theorem letterNotBlank {c : Char} (letter : c.isAlpha = true) : isBlank c = false := by
  have range := letterRange letter
  exact printedNotBlank (by omega) (by omega)

theorem digitNotLetter {c w : Char} (digit : c.isDigit = true) (lower : w.isLower = true) :
    c.toLower ≠ w := by
  intro same
  have letter := letterRange (letterOfCase lower same)
  have range := digitRange digit
  omega

theorem blankNotLetter {c w : Char} (blank : isBlank c = true) (lower : w.isLower = true) :
    c.toLower ≠ w := by
  intro same
  rw [letterNotBlank (letterOfCase lower same)] at blank
  cases blank

end Classes

section Numbers

def Number : Pattern (List Char) := fun cs ds =>
  ∃ rest, cs = ds ++ rest ∧ ds ∈ someOf Char.isDigit ∧ NoDigit rest

theorem digitsExactly {cs ds rest : List Char} :
    digits? cs = some (ds,rest) ↔ cs = ds ++ rest ∧ ds ∈ someOf Char.isDigit ∧ NoDigit rest := by
  constructor
  · intro found
    unfold digits? at found
    cases none : (cs.takeWhile Char.isDigit).isEmpty <;> simp only [none] at found <;> cases found
    refine ⟨(List.takeWhile_append_dropWhile).symm,⟨?_,fun d mem => List.mem_takeWhile_imp mem⟩,?_⟩
    · simpa using none
    · intro c first
      have stop := List.head?_dropWhile_not Char.isDigit cs
      rwa [first] at stop
  · rintro ⟨rfl,⟨nonempty,all⟩,stop⟩
    exact digitsRead all nonempty stop

theorem zerosDigits (zeros n : Nat) :
    List.replicate zeros '0' ++ decimal n ∈ someOf Char.isDigit :=
  ⟨List.append_ne_nil_of_right_ne_nil _ (decimalSome n),zeroedDigits zeros n⟩

theorem numberStarts {cs ds : List Char} (number : Number cs ds) :
    Starts (fun c => c.isDigit = true) cs := by
  obtain ⟨rest,rfl,digits,_⟩ := number
  exact startsAppend (someStarts digits) rest

theorem numberNotBlank {cs ds : List Char} (number : Number cs ds) :
    Starts (fun c => isBlank c = false) cs :=
  startsAs (numberStarts number) fun _ => digitNotBlank

theorem valueExactly {limit n : Nat} {ds : List Char} :
    valueBelow? limit ds = some n ↔ decimalValue ds = n ∧ n < limit := by
  unfold valueBelow?
  by_cases small : decimalValue ds < limit
  · rw [if_pos small,Option.some_inj]
    exact ⟨fun same => ⟨same,same ▸ small⟩,fun both => both.1⟩
  · rw [if_neg small]
    exact ⟨fun same => (by cases same),fun both => absurd (both.1 ▸ both.2) small⟩

theorem valueTooLarge {limit : Nat} {ds : List Char} :
    valueBelow? limit ds = none ↔ limit ≤ decimalValue ds := by
  unfold valueBelow?
  by_cases small : decimalValue ds < limit
  · rw [if_pos small]
    exact ⟨fun same => (by cases same),fun large => absurd small (Nat.not_lt.mpr large)⟩
  · rw [if_neg small]
    exact ⟨fun _ => Nat.not_lt.mp small,fun _ => rfl⟩

end Numbers
end PaneWatch.Text
