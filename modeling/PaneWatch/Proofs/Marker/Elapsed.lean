import PaneWatch.Marker
import PaneWatch.Proofs.Text.Pattern

/-! The elapsed time of a text, told by its colons. A colon is good if a digit stands before it
and two stand behind it. The search goes by where the digits begin, which is one or two places in
front of the colon; the first find is nevertheless at the first good colon. -/
namespace PaneWatch.Marker
open Text

/- What stands before and what stands behind a colon that belongs to an elapsed time. -/
inductive GoodColon : List Char → List Char → Prop where
  | between {d a b : Char} (before after : List Char)
      (digits : [d,a,b].all Char.isDigit = true) : GoodColon (before ++ [d]) (a::b::after)

inductive ElapsedHere : Pattern (List Char) where
  | short {d a b : Char} (rest : List Char) (digits : [d,a,b].all Char.isDigit = true) :
      ElapsedHere (d:: ':'::a::b::rest) [d,':',a,b]
  | long {c d a b : Char} (rest : List Char) (digits : [c,d,a,b].all Char.isDigit = true) :
      ElapsedHere (c::d:: ':'::a::b::rest) [c,d,':',a,b]

theorem secondsExactly {cs shown : List Char} :
    secondsHere? cs = some shown ↔ ∃ a b rest, cs = ':'::a::b::rest ∧ shown = [':',a,b] ∧
      [a,b].all Char.isDigit = true := by
  constructor
  · intro found
    unfold secondsHere? at found
    split at found
    · rename_i a b rest
      split at found
      · rename_i digits
        cases Option.some.inj found
        exact ⟨a,b,rest,rfl,rfl,by simpa using digits⟩
      · contradiction
    · contradiction
  · intro ⟨a,b,rest,text,same,digits⟩
    simp_all [secondsHere?]

theorem elapsedRecognised : Recognises elapsedHere? ElapsedHere := by
  intro cs shown
  constructor
  · intro found
    unfold elapsedHere? at found
    split at found
    · rename_i c d cs
      split at found
      · rename_i first
        split at found
        · rename_i second
          obtain ⟨seconds,shows,same⟩ := Option.map_eq_some_iff.mp found
          obtain ⟨a,b,rest,text,written,digits⟩ := secondsExactly.mp shows
          subst same text written
          exact .long rest (by simp_all)
        · obtain ⟨seconds,shows,same⟩ := Option.map_eq_some_iff.mp found
          obtain ⟨a,b,rest,text,written,digits⟩ := secondsExactly.mp shows
          cases text
          subst same written
          exact .short rest (by simp_all)
      · contradiction
    · contradiction
  · intro found
    cases found with
    | short rest digits =>
      have colon : ':'.isDigit = false := rfl
      simp_all [elapsedHere?,secondsHere?]
    | long rest digits => simp_all [elapsedHere?,secondsHere?]

theorem elapsedColon {rest shown : List Char} (found : ElapsedHere rest shown)
    (front : List Char) : ∃ before after minutes, front ++ rest = before ++ ':'::after ∧
      GoodColon before after ∧ before = front ++ minutes ∧ minutes.all Char.isDigit = true ∧
      minutes.length ≤ 2 := by
  cases found with
  | @short d a b rest digits =>
    refine ⟨front ++ [d],a::b::rest,[d],by simp,.between front rest digits,rfl,?_,by simp⟩
    simp_all
  | @long c d a b rest digits =>
    refine ⟨front ++ [c] ++ [d],a::b::rest,[c,d],by simp,.between (front ++ [c]) rest ?_,
      by simp,?_,by simp⟩ <;> simp_all

def leadingDigit (before : List Char) : List Char := before.getLast?.toList.filter Char.isDigit

theorem leadingOne (before : List Char) :
    (leadingDigit before).length ≤ 1 ∧ (leadingDigit before).all Char.isDigit = true := by
  constructor
  · unfold leadingDigit
    cases before.getLast? with
    | none => simp
    | some c => exact List.length_filter_le _ [c]
  · simp [leadingDigit]

theorem leadingLast (front : List Char) (c : Char) :
    leadingDigit (front ++ [c]) = if c.isDigit then [c] else [] := by
  cases digit : c.isDigit <;> simp [leadingDigit,digit]

theorem leadingFront (before : List Char) : ∃ front, before = front ++ leadingDigit before := by
  cases before.eq_nil_or_concat' with
  | inl none =>
    subst none
    exact ⟨[],rfl⟩
  | inr some =>
    obtain ⟨front,c,same⟩ := some
    subst same
    rw [leadingLast]
    split
    · exact ⟨front,rfl⟩
    · exact ⟨front ++ [c],(List.append_nil _).symm⟩

theorem elapsedAt {lead : List Char} {d a b : Char} (rest : List Char) (room : lead.length ≤ 1)
    (led : lead.all Char.isDigit = true) (digits : [d,a,b].all Char.isDigit = true) :
    ElapsedHere (lead ++ d:: ':'::a::b::rest) (lead ++ [d,':',a,b]) := by
  match lead with
  | [] => exact .short rest digits
  | [c] => exact .long rest (by simp_all)
  | _::_::_ => simp at room

theorem nowhereElapsed (text : List Char) : Nowhere ElapsedHere text ↔
    ∀ before after, text = before ++ ':'::after → ¬ GoodColon before after := by
  constructor
  · intro absent before after split good
    cases good with
    | @between d a b before after digits =>
      have found : ElapsedHere (d:: ':'::a::b::after) [d,':',a,b] := .short after digits
      exact absent _ ⟨before,by rw [split]; simp⟩ _ found
  · intro noColon rest suffix shown found
    obtain ⟨front,same⟩ := suffix
    obtain ⟨before,after,_,split,good,_⟩ := elapsedColon found front
    exact noColon before after (same.symm.trans split) good

/- An occurrence that begins earlier has its colon no later than in the place of this one, and an
earlier colon is not good. So it has the same colon, and two digits in front of it. -/
theorem leftmostElapsed {text before after : List Char} {d a b : Char}
    (split : text = before ++ d:: ':'::a::b::after) (digits : [d,a,b].all Char.isDigit = true)
    (first : ∀ earlier later, text = earlier ++ ':'::later → earlier.length ≤ before.length →
      ¬ GoodColon earlier later) :
    Leftmost ElapsedHere text (leadingDigit before ++ [d,':',a,b]) := by
  obtain ⟨front,lead⟩ := leadingFront before
  obtain ⟨room,led⟩ := leadingOne before
  have place : text = front ++ (leadingDigit before ++ d:: ':'::a::b::after) := by
    rw [split,← List.append_assoc,← lead]
  refine ⟨_,⟨front,place.symm⟩,elapsedAt after room led digits,?_⟩
  intro earlier suffix longer shown found
  obtain ⟨start,same⟩ := suffix
  obtain ⟨colonBefore,colonAfter,minutes,colon,good,behind,minute,few⟩ := elapsedColon found start
  have notBefore : before.length < colonBefore.length := by
    by_contra early
    exact first _ _ (same.symm.trans colon) (Nat.le_of_not_lt early) good
  have sooner : start.length < front.length := by
    have whole := congrArg List.length (place.symm.trans same.symm)
    simp only [List.length_append] at whole longer
    omega
  have frontLength := congrArg List.length lead
  have colonLength := congrArg List.length behind
  rw [List.length_append] at frontLength colonLength
  -- Only two digits in front of the same colon are left.
  match minutes with
  | [] => simp at colonLength; omega
  | [_] => simp at colonLength; omega
  | [c,e] =>
    have none : leadingDigit before = [] :=
      List.eq_nil_of_length_eq_zero (by simp at colonLength; omega)
    have texts : (start ++ [c]) ++ (e:: ':'::colonAfter) = before ++ (d:: ':'::a::b::after) := by
      rw [← split,← same,colon,behind]
      simp
    have fronts := (List.append_inj texts (by simp at colonLength ⊢; omega)).1
    have digit : c.isDigit = true := List.all_eq_true.mp minute c List.mem_cons_self
    rw [← fronts,leadingLast,if_pos digit] at none
    contradiction
  | _::_::_::_ => simp at few

theorem elapsedWord {cs shown : List Char} (found : ElapsedHere cs shown) :
    shown <+: cs ∧ shown.length ≤ 5 ∧ ∀ more, ElapsedHere (shown ++ more) shown := by
  cases found with
  | short rest digits =>
    exact ⟨List.prefix_append _ rest,by simp,fun more => .short more digits⟩
  | long rest digits =>
    exact ⟨List.prefix_append _ rest,by simp,fun more => .long more digits⟩

theorem elapsedFinal : Final ElapsedHere where
  stays := by
    intro cs shown more found
    obtain ⟨⟨rest,same⟩,_,word⟩ := elapsedWord found
    rw [← same,List.append_assoc]
    exact word (rest ++ more)
  within := by
    intro part rest more shown other nonempty found earlier
    have long : 4 ≤ rest.length := by cases found <;> simp
    have some := List.length_pos_of_ne_nil nonempty
    obtain ⟨covered,short,word⟩ := elapsedWord earlier
    rw [← List.append_assoc] at covered
    have inside : other <+: part ++ rest :=
      List.prefix_of_prefix_length_le covered (List.prefix_append _ more)
        (by rw [List.length_append]; omega)
    obtain ⟨left,same⟩ := inside
    rw [← same]
    exact word left

theorem elapsedByFirstColon (text : String) :
    (elapsed? text = none ↔ ∀ before after, text.toList = before ++ ':'::after →
      ¬ GoodColon before after) ∧
    ∀ before after d a b, text.toList = before ++ d:: ':'::a::b::after →
      [d,a,b].all Char.isDigit = true →
      (∀ earlier later, text.toList = earlier ++ ':'::later → earlier.length ≤ before.length →
        ¬ GoodColon earlier later) →
      elapsed? text = some (String.ofList (leadingDigit before ++ [d,':',a,b])) := by
  unfold elapsed?
  constructor
  · rw [Option.map_eq_none_iff,elapsedRecognised.nowhere,nowhereElapsed]
  · intro before after d a b split digits first
    rw [(elapsedRecognised.leftmost _ _).mpr (leftmostElapsed split digits first)]
    rfl

theorem elapsedByFirstColonCut : elapsed? "5:x123:456:78" = some "23:45" := by
  have split : "5:x123:456:78".toList =
      "5:x12".toList ++ '3':: ':':: '4':: '5'::"6:78".toList := by decide
  have first : ∀ earlier later, "5:x123:456:78".toList = earlier ++ ':'::later →
      earlier.length ≤ "5:x12".toList.length → ¬ GoodColon earlier later := by
    intro earlier later same near good
    have colon : "5:x123:456:78".toList[earlier.length]? = some ':' := by rw [same]; simp
    have behind : later = "5:x123:456:78".toList.drop (earlier.length + 1) := by rw [same]; simp
    have second : ∀ i ≤ 5, "5:x123:456:78".toList[i]? = some ':' → i = 1 := by decide
    rw [second _ near colon,show "5:x123:456:78".toList.drop 2 = 'x'::"123:456:78".toList by
      decide] at behind
    cases good with
    | between before after digits =>
      obtain ⟨letter,_⟩ := List.cons.inj behind
      subst letter
      simp at digits
  have shown := (elapsedByFirstColon _).2 _ _ _ _ _ split (by decide) first
  have lead : leadingDigit "5:x12".toList = ['2'] := by decide
  rw [lead] at shown
  exact shown

end PaneWatch.Marker
