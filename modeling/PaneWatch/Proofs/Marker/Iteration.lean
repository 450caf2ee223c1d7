import PaneWatch.Marker
import PaneWatch.Proofs.Text.Pattern

/-! The iteration marker read back. The leftmost marker of a text decides, be its number too
large or not. A marker has one opening bracket, so a text in front of a written marker does not
begin one that ends in it. -/
namespace PaneWatch.Marker
open Text

def Bracketed : Pattern (List Char) := fun cs ds =>
  ∃ rest, cs = ds ++ ']'::rest ∧ ds ∈ someOf Char.isDigit

def IterationHere : Pattern (List Char) :=
  Then ({['[','i','t','e','r']} * someOf isBlank) Bracketed

theorem bracketedRecognised : Recognises (fun cs => (digits? cs).bind fun (ds,rest) =>
    match rest with
    | ']'::_ => some ds
    | _ => none) Bracketed := by
  intro cs ds
  constructor
  · intro shown
    obtain ⟨⟨found,rest⟩,taken,closed⟩ := Option.bind_eq_some_iff.mp shown
    obtain ⟨rfl,digits,_⟩ := digitsExactly.mp taken
    dsimp only at closed
    split at closed
    · cases closed
      exact ⟨_,rfl,digits⟩
    · cases closed
  · rintro ⟨rest,rfl,digits⟩
    have taken : digits? (ds ++ ']'::rest) = some (ds,']'::rest) :=
      digitsExactly.mpr ⟨rfl,digits,by rintro _ ⟨⟩; rfl⟩
    simp only [taken,Option.bind_some]

theorem bracketedNotBlank {cs ds : List Char} (found : Bracketed cs ds) :
    Starts (fun c => isBlank c = false) cs := by
  obtain ⟨rest,rfl,digits⟩ := found
  exact startsAs (startsAppend (someStarts digits) _) fun _ => digitNotBlank

theorem iterationRecognised : Recognises iterationHere? IterationHere := by
  have steps := (wordTaken ['[','i','t','e','r']).before
    (blanksTaken.before bracketedRecognised fun _ _ => bracketedNotBlank)
    fun _ _ _ => trivial
  simp only [IterationHere,thenMul]
  exact steps

theorem iterationShown (text : String) (v : UInt32) :
    iteration? text = some v ↔
      ∃ ds, Leftmost IterationHere text.toList ds ∧ decimalValue ds = v.toNat := by
  simp only [iteration?,bind,Option.bind_eq_some_iff,iterationRecognised.leftmost,valueExactly,
    Option.some_inj]
  constructor
  · rintro ⟨ds,leftmost,n,⟨value,small⟩,rfl⟩
    exact ⟨ds,leftmost,by rw [UInt32.toNat_ofNat_of_lt' small,value]⟩
  · rintro ⟨ds,leftmost,value⟩
    exact ⟨ds,leftmost,v.toNat,⟨value,v.toNat_lt⟩,UInt32.ofNat_toNat⟩

theorem iterationHidden (text : String) :
    iteration? text = none ↔ Nowhere IterationHere text.toList ∨
      ∃ ds, Leftmost IterationHere text.toList ds ∧ 2^32 - 1 < decimalValue ds := by
  rw [← iterationRecognised.nowhere]
  simp only [← iterationRecognised.leftmost]
  cases found : leftmost? iterationHere? text.toList with
  | none => simp [iteration?,found]
  | some ds =>
    have large : valueBelow? UInt32.size ds = none ↔ 2^32 - 1 < decimalValue ds := valueTooLarge
    have hidden : iteration? text = none ↔ valueBelow? UInt32.size ds = none := by
      cases value : valueBelow? UInt32.size ds <;> simp [iteration?,found,value]
    rw [hidden,large]
    simp

def marker (blanks ds : List Char) : List Char :=
  '['::(['i','t','e','r'] ++ (blanks ++ (ds ++ [']'])))

theorem markerHere {cs ds : List Char} : IterationHere cs ds ↔ ∃ blanks rest,
    cs = marker blanks ds ++ rest ∧ blanks ∈ someOf isBlank ∧ ds ∈ someOf Char.isDigit := by
  rw [IterationHere,thenMul]
  constructor
  · rintro ⟨_,rfl,_,rfl,blanks,blank,_,rfl,rest,rfl,digits⟩
    exact ⟨blanks,rest,by simp [marker],blank,digits⟩
  · rintro ⟨blanks,rest,rfl,blank,digits⟩
    refine ⟨_,rfl,blanks ++ (ds ++ ']'::rest),?_,blanks,blank,_,rfl,rest,rfl,digits⟩
    simp [marker]

theorem oneBracket {blanks ds : List Char} (blank : blanks ∈ someOf isBlank)
    (digits : ds ∈ someOf Char.isDigit) : '[' ∉ ['i','t','e','r'] ++ (blanks ++ (ds ++ [']'])) := by
  have notBlank : '[' ∉ blanks := fun mem => absurd (blank.2 _ mem) (by decide)
  have notDigit : '[' ∉ ds := fun mem => absurd (digits.2 _ mem) (by decide)
  simp [notBlank,notDigit]

theorem markerWithin {part more ds : List Char} (nonempty : part ≠ [])
    (found : IterationHere (part ++ '['::more) ds) : IterationHere part ds := by
  obtain ⟨blanks,rest,same,blank,digits⟩ := markerHere.mp found
  obtain ⟨left,inside⟩ := wordWithin nonempty same (oneBracket blank digits)
  exact markerHere.mpr ⟨blanks,left,inside.symm,blank,digits⟩

theorem iterationFinal : Final IterationHere := by
  refine Final.opened (· = '[') ?_ ?_ ?_
  · intro cs ds more found
    obtain ⟨blanks,rest,same,blank,digits⟩ := markerHere.mp found
    exact markerHere.mpr ⟨blanks,rest ++ more,by rw [same,List.append_assoc],blank,digits⟩
  · intro cs ds found
    obtain ⟨blanks,rest,same,_⟩ := markerHere.mp found
    exact ⟨_,_,same,rfl⟩
  · intro part c more ds nonempty bracket found
    subst bracket
    exact markerWithin nonempty found

theorem iterationReadsBack :
    (∀ text v, iteration? text = some v ↔
      ∃ ds, Leftmost IterationHere text.toList ds ∧ decimalValue ds = v.toNat) ∧
    (∀ text, iteration? text = none ↔ Nowhere IterationHere text.toList ∨
      ∃ ds, Leftmost IterationHere text.toList ds ∧ 2^32 - 1 < decimalValue ds) ∧
    ∀ (before blanks after : String) (zeros : Nat) (n : UInt32),
      Nowhere IterationHere before.toList → blanks.toList ∈ someOf isBlank →
      iteration? (before ++ "[iter" ++ blanks ++
        String.ofList (List.replicate zeros '0' ++ decimal n.toNat) ++ "]" ++ after) = some n := by
  refine ⟨iterationShown,iterationHidden,fun before blanks after zeros n absent blank => ?_⟩
  have written : (before ++ "[iter" ++ blanks ++
      String.ofList (List.replicate zeros '0' ++ decimal n.toNat) ++ "]" ++ after).toList =
      before.toList ++
        (marker blanks.toList (List.replicate zeros '0' ++ decimal n.toNat) ++ after.toList) := by
    simp [marker]
  refine (iterationShown _ _).mpr ⟨List.replicate zeros '0' ++ decimal n.toNat,?_,?_⟩
  · rw [written]
    exact leftmostBehind absent (markerHere.mpr ⟨_,_,rfl,blank,zerosDigits _ _⟩)
      fun part ds nonempty => markerWithin nonempty
  · rw [decimalValueZeros,decimalReads]

theorem iterationReadsBackPastFalseStart :
    iteration? "[iter 1 [iter\u2003 004294967295] [iter 3]" = some 4294967295 := by
  have absent : Nowhere IterationHere "[iter 1 ".toList :=
    (iterationRecognised.nowhere _).mp (by decide)
  have blank : "\u2003 ".toList ∈ someOf isBlank :=
    ⟨by decide,List.all_eq_true.mp (by decide)⟩
  have numeral : decimal (4294967295 : UInt32).toNat = "4294967295".toList := by decide +kernel
  have shown := iterationReadsBack.2.2 "[iter 1 " "\u2003 " " [iter 3]" 2 4294967295 absent blank
  rw [numeral] at shown
  exact shown

end PaneWatch.Marker
