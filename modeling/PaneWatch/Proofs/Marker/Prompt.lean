import PaneWatch.Marker
import PaneWatch.Proofs.Text.Trim

/-! The shell prompt by one character. The search looks behind every dollar of the trimmed text;
what it finds out is whether the last character that shows is a dollar. -/
namespace PaneWatch.Marker
open Text

def PromptHere : Pattern Unit := fun cs _ => ∃ back ∈ manyOf isBlank, cs = '$'::back

theorem promptRecognised : Recognises promptHere? PromptHere := by
  intro cs shown
  unfold promptHere?
  split
  · rename_i rest
    cases blank : rest.all isBlank with
    | true =>
      refine ⟨fun _ => ⟨rest,List.all_eq_true.mp blank,rfl⟩,fun _ => rfl⟩
    | false =>
      refine ⟨fun found => (by cases found),fun here => ?_⟩
      obtain ⟨back,blankBack,same⟩ := here
      cases same
      rw [List.all_eq_true.mpr blankBack] at blank
      cases blank
  · rename_i other
    refine ⟨fun found => (by cases found),fun here => ?_⟩
    obtain ⟨back,_,same⟩ := here
    exact absurd same (other back)

theorem promptFound (cs : List Char) :
    (leftmost? promptHere? cs).isSome = true ↔ (ink cs).getLast? = some '$' := by
  rw [inkLast]
  have dollar : isBlank '$' = false := rfl
  cases found : leftmost? promptHere? cs with
  | none =>
    have absent := (promptRecognised.nowhere cs).mp found
    refine ⟨fun some => (by cases some),fun ends => ?_⟩
    obtain ⟨_,front,back,blank,same⟩ := ends
    exact absurd ⟨back,blank,rfl⟩ (absent ('$'::back) ⟨front,same.symm⟩ ())
  | some shown =>
    obtain ⟨rest,⟨front,same⟩,⟨back,blank,here⟩,_⟩ := (promptRecognised.leftmost cs shown).mp found
    exact ⟨fun _ => ⟨dollar,front,back,blank,by rw [← here,same]⟩,fun _ => rfl⟩

theorem promptEnds (text : String) :
    isPrompt text = true ↔ (ink text.toList).getLast? = some '$' := by
  unfold isPrompt
  rw [promptFound,inkTrim]

theorem promptSame {text other : String}
    (same : (ink text.toList).getLast? = (ink other.toList).getLast?) :
    isPrompt text = isPrompt other := by
  rw [Bool.eq_iff_iff,promptEnds,promptEnds,same]

theorem promptByLastInk :
    (∀ text, isPrompt text = true ↔ (ink text.toList).getLast? = some '$') ∧
    (∀ a text b : String, a.toList ∈ manyOf isBlank → b.toList ∈ manyOf isBlank →
      isPrompt (a ++ text ++ b) = isPrompt text) ∧
    ∀ text u : String, (∃ c ∈ u.toList, isBlank c = false) →
      isPrompt (text ++ u) = isPrompt u := by
  refine ⟨promptEnds,?_,?_⟩
  · intro a text b blankBefore blankAfter
    apply promptSame
    simp only [String.toList_append,inkAppend,inkBlank blankBefore,inkBlank blankAfter,
      List.nil_append,List.append_nil]
  · intro text u shows
    obtain ⟨c,mem,notBlank⟩ := shows
    have kept : c ∈ ink u.toList := List.mem_filter.mpr ⟨mem,by simp [notBlank]⟩
    apply promptSame
    rw [String.toList_append,inkAppend,List.getLast?_append_of_ne_nil _ (List.ne_nil_of_mem kept)]

theorem promptByLastInkFramed :
    isPrompt ("\u2003\n" ++ "cost $5 $" ++ " \u0085") = isPrompt "cost $5 $" ∧
      isPrompt ("$ " ++ "ls\n") = isPrompt "ls\n" := by
  have before : "\u2003\n".toList ∈ manyOf isBlank := List.all_eq_true.mp (by decide)
  have after : " \u0085".toList ∈ manyOf isBlank := List.all_eq_true.mp (by decide)
  exact ⟨promptByLastInk.2.1 _ _ _ before after,promptByLastInk.2.2 _ _ ⟨'l',by decide,rfl⟩⟩

end PaneWatch.Marker
