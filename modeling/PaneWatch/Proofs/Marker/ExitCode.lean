import PaneWatch.Marker
import PaneWatch.Proofs.Text.Pattern

/-! The exit code of a text, told from the forms it can be reported in. Each form is a lead in
front of a number; the first form counts whose leftmost occurrence has a number of 31 bits. -/
namespace PaneWatch.Marker
open Text

namespace ExitForm

def lead : ExitForm → Language Char
  | exitCode =>
    anyCase ['e','x','i','t'] * someOf isBlank * anyCase ['c','o','d','e'] * someOf colonOrBlank
  | exitedWith =>
    anyCase ['e','x','i','t','e'] * maybe (anyCase ['d']) * someOf isBlank *
      anyCase ['w','i','t','h'] * someOf isBlank *
      maybe (anyCase ['c','o','d','e'] * someOf isBlank)
  | statusVariable =>
    {['$','?']} * manyOf isBlank * oneOf (fun c => c == '=' || c == ':') * manyOf isBlank
  | returned =>
    anyCase ['r','e','t','u','r','n'] * maybe (anyCase ['e','d']) * someOf isBlank

def Here (form : ExitForm) : Pattern (List Char) := Then form.lead Number

theorem numberRecognised : Recognises numberHere? Number := by
  intro cs ds
  rw [numberHere?,Option.map_eq_some_iff]
  constructor
  · rintro ⟨⟨ds,rest⟩,found,rfl⟩
    exact ⟨rest,digitsExactly.mp found⟩
  · rintro ⟨rest,found⟩
    exact ⟨(ds,rest),digitsExactly.mpr found,rfl⟩

theorem casedNotBlank {w : Char} {word cs ds} {At : Pattern (List Char)} (lower : w.isLower = true)
    (found : Then (anyCase (w::word)) At cs ds) : Starts (fun c => isBlank c = false) cs :=
  startsAs (thenStarts (fun _ => casedStarts) found) fun _ same =>
    letterNotBlank (letterOfCase lower same)

theorem blankNotCased {w : Char} {cs ds} {At : Pattern (List Char)} (lower : w.isLower = true)
    (found : Then (someOf isBlank) At cs ds) : Starts (fun c => c.toLower ≠ w) cs :=
  startsAs (thenStarts (fun _ => someStarts) found) fun _ blank => blankNotLetter blank lower

theorem digitNotSeparator {c : Char} (digit : c.isDigit = true) : colonOrBlank c = false := by
  have range := digitRange digit
  have other : c ≠ ':' := by rintro rfl; cases digit
  simp [colonOrBlank,other,digitNotBlank digit]

theorem markNotBlank {c : Char} (mark : (c == '=' || c == ':') = true) : isBlank c = false := by
  rw [Bool.or_eq_true,beq_iff_eq,beq_iff_eq] at mark
  rcases mark with rfl | rfl <;> rfl

theorem noCodeWord {cs ds : List Char} (number : Number cs ds) :
    (afterAnyCase? ['c','o','d','e'] cs).bind afterBlanks? = none := by
  rw [noCase (startsAs (numberStarts number) fun _ digit => digitNotLetter digit rfl)]
  rfl

theorem codeWordNotBlank {cs ds : List Char}
    (found : Then (maybe (anyCase ['c','o','d','e'] * someOf isBlank)) Number cs ds) :
    Starts (fun c => isBlank c = false) cs := by
  rw [thenMaybe,thenMul] at found
  rcases found with number | word
  · exact numberNotBlank number
  · exact casedNotBlank rfl word

theorem exitCodeRecognised : Recognises exitCode.here? exitCode.Here := by
  have steps := (caseTaken ['e','x','i','t']).before
    (blanksTaken.before
      ((caseTaken ['c','o','d','e']).before
        ((someTaken colonOrBlank).before numberRecognised
          fun _ _ number => startsAs (numberStarts number) fun _ => digitNotSeparator)
        fun _ _ _ => trivial)
      fun _ _ => casedNotBlank rfl)
    fun _ _ _ => trivial
  simp only [someThen] at steps
  simp only [Here,lead,thenMul]
  exact steps

theorem exitedWithRecognised : Recognises exitedWith.here? exitedWith.Here := by
  have codeWord := ((caseTaken ['c','o','d','e']).andThen blanksTaken
    fun _ _ _ _ => trivial).optional
  have steps := (caseTaken ['e','x','i','t','e']).before
    ((caseTaken ['d']).optional.before
      (blanksTaken.before
        ((caseTaken ['w','i','t','h']).before
          (blanksTaken.before
            (codeWord.before numberRecognised
              fun _ _ number => ⟨numberNotBlank number,noCodeWord number⟩)
            fun _ _ found => codeWordNotBlank found)
          fun _ _ _ => trivial)
        fun _ _ => casedNotBlank rfl)
      fun _ _ found => ⟨trivial,noCase (blankNotCased rfl found)⟩)
    fun _ _ _ => trivial
  simp only [Here,lead,thenMul]
  exact steps

theorem statusVariableRecognised : Recognises statusVariable.here? statusVariable.Here := by
  have steps := (wordTaken ['$','?']).before
    ((manyTaken isBlank).before
      ((oneTaken fun c => c == '=' || c == ':').before
        ((manyTaken isBlank).before numberRecognised fun _ _ => numberNotBlank)
        fun _ _ _ => trivial)
      fun _ _ found => startsAs (thenStarts (fun _ => oneStarts) found) fun _ => markNotBlank)
    fun _ _ _ => trivial
  simp only [oneThen] at steps
  simp only [Here,lead,thenMul]
  exact steps

theorem returnedRecognised : Recognises returned.here? returned.Here := by
  have steps := (caseTaken ['r','e','t','u','r','n']).before
    ((caseTaken ['e','d']).optional.before
      (blanksTaken.before numberRecognised fun _ _ => numberNotBlank)
      fun _ _ found => ⟨trivial,noCase (blankNotCased rfl found)⟩)
    fun _ _ _ => trivial
  simp only [Here,lead,thenMul]
  exact steps

theorem recognised (form : ExitForm) : Recognises form.here? form.Here := by
  cases form with
  | exitCode => exact exitCodeRecognised
  | exitedWith => exact exitedWithRecognised
  | statusVariable => exact statusVariableRecognised
  | returned => exact returnedRecognised

/- The leftmost occurrence of the form, and no other, carries the code. -/
def Reports (form : ExitForm) (text : String) (code : Int32) : Prop :=
  ∃ ds, Leftmost form.Here text.toList ds ∧ code.toInt = decimalValue ds

def GivesWay (form : ExitForm) (text : String) : Prop :=
  ∀ ds, Leftmost form.Here text.toList ds → 2^31 - 1 < decimalValue ds

theorem codeReported (form : ExitForm) (text : String) (code : Int32) :
    exitCodeOf? text.toList form = some code ↔ form.Reports text code := by
  simp only [exitCodeOf?,bind,Option.bind_eq_some_iff,form.recognised.leftmost,valueExactly,
    Option.some_inj]
  constructor
  · rintro ⟨ds,leftmost,n,⟨value,small⟩,rfl⟩
    exact ⟨ds,leftmost,by rw [Int32.toInt_ofNat_of_lt small,value]⟩
  · rintro ⟨ds,leftmost,value⟩
    have small : decimalValue ds < 2147483648 := by
      have most := code.toInt_lt
      omega
    refine ⟨ds,leftmost,_,⟨rfl,small⟩,Int32.toInt_inj.mp ?_⟩
    rw [Int32.toInt_ofNat_of_lt small,value]

theorem givenWay (form : ExitForm) (text : String) :
    exitCodeOf? text.toList form = none ↔ form.GivesWay text := by
  rw [Option.eq_none_iff_forall_ne_some]
  constructor
  · intro silent ds leftmost
    by_contra fits
    have small : decimalValue ds < 2^31 := by omega
    refine silent (Int32.ofNat (decimalValue ds)) ((form.codeReported text _).mpr ?_)
    exact ⟨ds,leftmost,Int32.toInt_ofNat_of_lt small⟩
  · intro givesWay code reported
    obtain ⟨ds,leftmost,value⟩ := (form.codeReported text code).mp reported
    have large := givesWay ds leftmost
    have most := code.toInt_lt
    omega

end ExitForm

theorem exitCodePrioritised (text : String) :
    (∀ code, exitCode? text = some code ↔ ∃ before form after,
      [ExitForm.exitCode,.exitedWith,.statusVariable,.returned] = before ++ form::after ∧
      form.Reports text code ∧ ∀ earlier ∈ before, earlier.GivesWay text) ∧
    (exitCode? text = none ↔ ∀ form : ExitForm, form.GivesWay text) := by
  refine ⟨fun code => ?_,?_⟩
  · rw [exitCode?,List.findSome?_eq_some_iff]
    simp only [ExitForm.codeReported,ExitForm.givenWay]
    rfl
  · rw [exitCode?,List.findSome?_eq_none_iff]
    simp only [ExitForm.givenWay]
    refine ⟨fun all form => all form ?_,fun all form _ => all form⟩
    cases form <;> decide

example : exitCode? "exit code: 2147483648, exit code 3, EXITED\u2003with code 007" = some 7 := by
  decide

end PaneWatch.Marker
