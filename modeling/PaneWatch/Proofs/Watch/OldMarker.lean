import PaneWatch.Proofs.Marker.Elapsed
import PaneWatch.Proofs.Marker.Iteration
import PaneWatch.Proofs.Marker.Mode
import PaneWatch.Proofs.Watch.Forward

/-! A pane that keeps an old marker in view. What a text shows first it still shows first with more
text behind it, so a marker that stays at the head of the pane hides all later ones from a wait. -/
namespace PaneWatch
open Text

namespace Marker

theorem iterationKept {text : String} (shows : ¬ Nowhere IterationHere text.toList)
    (more : String) : iteration? (text ++ more) = iteration? text := by
  rw [← iterationRecognised.nowhere] at shows
  obtain ⟨ds,found⟩ := Option.ne_none_iff_exists'.mp shows
  have kept := iterationFinal.kept iterationRecognised found more.toList
  unfold iteration?
  rw [String.toList_append,kept,found]

theorem elapsedKept {text shown : String} (shows : elapsed? text = some shown) (more : String) :
    elapsed? (text ++ more) = some shown := by
  unfold elapsed? at shows ⊢
  obtain ⟨cs,found,same⟩ := Option.map_eq_some_iff.mp shows
  have kept := elapsedFinal.kept elapsedRecognised found more.toList
  rw [String.toList_append,kept,Option.map_some,same]

theorem modeKept {text : String} {m : Mode} (shows : mode? text = some m) (more : String) :
    mode? (text ++ more) = some m := by
  rw [modeShown,Option.join_eq_some_iff] at shows ⊢
  rw [String.toList_append]
  exact modeFinal.kept modeRecognised shows more.toList

/- The first marker of the text stands for an iteration before `n`, or for none that there is. -/
def FirstBelow (n : UInt32) (text : String) : Prop :=
  ∃ ds, Leftmost IterationHere text.toList ds ∧
    (decimalValue ds < n.toNat ∨ 2^32 - 1 < decimalValue ds)

end Marker

namespace Watch
open Marker

theorem belowNotReached {n : UInt32} {text : String} (below : FirstBelow n text) (more : String) :
    reached n (text ++ more) = false := by
  obtain ⟨ds,leftmost,value⟩ := below
  have shows : ¬ Nowhere IterationHere text.toList := by
    obtain ⟨rest,suffix,found,_⟩ := leftmost
    intro absent
    exact absent rest suffix ds found
  unfold reached
  rw [iterationKept shows]
  cases marker : iteration? text with
  | none => rfl
  | some shown =>
    obtain ⟨digits,first,same⟩ := (iterationShown text shown).mp marker
    have both := (iterationRecognised.leftmost _ _).mpr leftmost
    rw [(iterationRecognised.leftmost _ _).mpr first] at both
    cases both
    have small := shown.toNat_lt
    have less : shown.toNat < n.toNat := by omega
    simpa [UInt32.lt_iff_toNat_lt] using less

variable {σ ε : Type} [Stage σ ε]

theorem firstMarkerFinal :
    (∀ a b : String, ¬ Nowhere IterationHere a.toList → iteration? (a ++ b) = iteration? a) ∧
    (∀ a b shown : String, elapsed? a = some shown → elapsed? (a ++ b) = some shown) ∧
    (∀ (a b : String) (m : Mode), mode? a = some m → mode? (a ++ b) = some m) ∧
    ∀ (a : String) (rounds : Nat) (settings : Settings) (n : UInt32) (timeout : Span) (s : σ),
      FirstBelow n a →
      (∀ text ∈ waitTexts rounds settings n timeout s, ∃ b, text = a ++ b) →
      (wait rounds settings n timeout s).1 = none ∨
        (wait rounds settings n timeout s).1 = some (.ok none) ∨
        ∃ e, (wait rounds settings n timeout s).1 = some (.error e) := by
  refine ⟨fun a b shows => iterationKept shows b,fun a b shown shows => elapsedKept shows b,
    fun a b m shows => modeKept shows b,?_⟩
  intro a rounds settings n timeout s below inView
  obtain ⟨entries,journaled⟩ := waitJournaled rounds settings n timeout s
  rcases answer : (wait rounds settings n timeout s).1 with _ | e | _ | snapshot
  · exact .inl rfl
  · exact .inr (.inr ⟨e,rfl⟩)
  · exact .inr (.inl rfl)
  · rw [answer] at journaled
    obtain ⟨written,same,source⟩ := writtenByWait journaled
    obtain ⟨polls,hit,last,caught,⟨text,outcome,hits⟩,_⟩ := caughtLast source
    have seen : text ∈ waitTexts rounds settings n timeout s := by
      rw [waitTexts,journaled,same,caught]
      exact List.mem_filterMap.mpr ⟨hit,by simp,by rw [outcome]; rfl⟩
    obtain ⟨b,shown⟩ := inView text seen
    rw [shown,belowNotReached below] at hits
    contradiction

def oldMarkerScene : Scene :=
  ⟨.fake (.startingAt 3),.ofFrames [.ok "[iter 1] 0:5",.ok "[iter 1] [iter 2]"],[],fun _ => .epoch⟩

theorem firstMarkerFinalHidden :
    iteration? ("[iter 4294967296]" ++ " [iter 3]") = iteration? "[iter 4294967296]" ∧
    elapsed? ("took 1:23" ++ "4 of 5:00") = some "1:23" ∧
    mode? ("► Auto" ++ "▶ observe") = some .auto ∧
    FirstBelow 2 "[iter 1]" ∧
    waitTexts 9 briefSettings 2 (Span.ofMillis 25) oldMarkerScene =
      ["[iter 1] 0:5","[iter 1] [iter 2]","[iter 1] [iter 2]"] ∧
    ((wait 9 briefSettings 2 (Span.ofMillis 25) oldMarkerScene).1 = none ∨
      (wait 9 briefSettings 2 (Span.ofMillis 25) oldMarkerScene).1 = some (.ok none) ∨
      ∃ e, (wait 9 briefSettings 2 (Span.ofMillis 25) oldMarkerScene).1 = some (.error e)) := by
  obtain ⟨iteration,elapsed,mode,waits⟩ := firstMarkerFinal (σ := Scene)
  have large : ¬ Nowhere IterationHere "[iter 4294967296]".toList := by
    rw [← iterationRecognised.nowhere]
    decide
  have below : FirstBelow 2 "[iter 1]" :=
    ⟨['1'],(iterationRecognised.leftmost _ _).mp (by decide),by decide⟩
  have texts : waitTexts 9 briefSettings 2 (Span.ofMillis 25) oldMarkerScene =
      ["[iter 1] 0:5","[iter 1] [iter 2]","[iter 1] [iter 2]"] := by rfl
  have inView : ∀ text ∈ ["[iter 1] 0:5","[iter 1] [iter 2]","[iter 1] [iter 2]"],
      ∃ b, text = "[iter 1]" ++ b := by
    have first : "[iter 1] 0:5" = "[iter 1]" ++ " 0:5" := by decide
    have second : "[iter 1] [iter 2]" = "[iter 1]" ++ " [iter 2]" := by decide
    exact List.forall_mem_cons.mpr ⟨⟨_,first⟩,List.forall_mem_cons.mpr ⟨⟨_,second⟩,
      List.forall_mem_singleton.mpr ⟨_,second⟩⟩⟩
  exact ⟨iteration _ _ large,elapsed _ _ _ (by decide),mode _ _ _ (by decide),below,texts,
    waits "[iter 1]" 9 briefSettings 2 (Span.ofMillis 25) oldMarkerScene below (texts ▸ inView)⟩

end Watch
end PaneWatch
