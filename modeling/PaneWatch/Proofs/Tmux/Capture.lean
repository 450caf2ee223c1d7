import PaneWatch.Proofs.Text.Trim
import PaneWatch.Proofs.Text.Utf8
import PaneWatch.Tmux

/-! What a pane shows is what the program wrote. Its status says which of the two streams is told:
all of the output, or the error output without the blanks around it. Text comes through as it went
out, and bytes that are no text cost one replacement for each part, never the text behind them. -/
namespace PaneWatch
open Text

namespace TmuxPane

variable {host : Host} {p : TmuxPane} {run : Finished}

theorem captureServed (ran : host.launch p.program p.arguments = .ok run) (good : run.status = 0) :
    p.capture host = .ok (String.ofList (decode run.output)) := by
  unfold capture
  rw [ran]
  exact if_pos good

theorem captureRefused (ran : host.launch p.program p.arguments = .ok run)
    (bad : run.status ≠ 0) : ∃ shown, Trimmed (decode run.errors) shown ∧
      p.capture host = .error (.refused p.target run.status (String.ofList shown)) := by
  refine ⟨trim (decode run.errors),trimExactly.mp rfl,?_⟩
  unfold capture
  rw [ran]
  exact if_neg bad

theorem captureSucceeds (ran : host.launch p.program p.arguments = .ok run) :
    (∃ text, p.capture host = .ok text) ↔ run.status = 0 := by
  constructor
  · intro served
    obtain ⟨text,served⟩ := served
    by_contra bad
    obtain ⟨_,_,refused⟩ := captureRefused ran bad
    rw [served] at refused
    cases refused
  · intro good
    exact ⟨_,captureServed ran good⟩

theorem captureVerbatim (host : Host) (p : TmuxPane) :
    (∀ run, host.launch p.program p.arguments = .ok run →
      ((∃ text, p.capture host = .ok text) ↔ run.status = 0) ∧
      (run.status = 0 → p.capture host = .ok (String.ofList (decode run.output))) ∧
      (run.status ≠ 0 → ∃ shown, Trimmed (decode run.errors) shown ∧
        p.capture host = .error (.refused p.target run.status (String.ofList shown)))) ∧
    (∀ s b, String.ofList (decode (utf8 s ++ b)) = s ++ String.ofList (decode b)) ∧
    (∀ s, String.ofList (decode (utf8 s)) = s) ∧
    (∀ bytes shown, decode bytes = shown ↔ Shown bytes shown) ∧
    ∀ part s b, Broken part (utf8 s ++ b) → String.ofList (decode (part ++ (utf8 s ++ b))) =
      String.singleton replacement ++ s ++ String.ofList (decode b) := by
  refine ⟨?_,textReads,?_,fun _ _ => decodeExactly,fun _ _ _ => tornTextReads⟩
  · intro run ran
    exact ⟨captureSucceeds ran,captureServed ran,captureRefused ran⟩
  · intro s
    have whole := textReads s []
    rw [List.append_nil] at whole
    rw [whole]
    exact String.append_empty

/- The front of a euro sign, a dollar and a line end for one that asks for colours; for the others
a byte of no character within blanks. -/
def torn : Program := fun arguments =>
  if "-e" ∈ arguments then ⟨0,[0x20,0xE2,0x82,0x24,0x0A],[0x24]⟩
  else ⟨3,[0x24],[0x20,0xFF,0x6E,0x6F,0x0A]⟩

def tornHost : Host := Host.withProgram (fun _ => .nothing) "tmux" torn

theorem tornReads (rest : Bytes) : decode ([0xE2,0x82,0x24] ++ rest) =
    replacement:: '$'::decode rest :=
  rfl

theorem tornFront : Broken [0xE2,0x82] (utf8 "$" ++ [0x0A]) := by
  have dollar : utf8 "$" = [0x24] := by
    rw [← encodedText]
    decide
  rw [dollar]
  refine ⟨?_,List.cons_ne_nil _ _,Or.inr ⟨'€',by decide⟩,?_⟩
  · intro c stands
    obtain ⟨rest,same⟩ := stands
    have read := charReads c rest
    rw [same] at read
    have shown : replacement:: '$'::['\n'] = c::decode rest := (tornReads [0x0A]).symm.trans read
    rw [← (List.cons.inj shown).1] at same
    have bytes : encodeChar replacement = [0xEF,0xBF,0xBD] := by decide
    rw [bytes] at same
    exact absurd (List.cons.inj same).1 (by decide)
  · intro w within longer subpart
    have stands : ([0xE2,0x82,0x24] : Bytes) <+: [0xE2,0x82,0x24,0x0A] := ⟨[0x0A],rfl⟩
    obtain ⟨more,rfl⟩ := List.prefix_of_prefix_length_le stands within longer
    cases subpart with
    | inl one => rw [one] at longer; exact absurd longer (by decide)
    | inr begun =>
      obtain ⟨c,rest,same⟩ := begun
      have read := charReads c []
      rw [List.append_nil,← same,List.append_assoc] at read
      cases (List.cons.inj ((tornReads (more ++ rest)).symm.trans read)).2

theorem captureVerbatimTorn :
    ((ofTarget "a:1").withEscapes true).capture tornHost = .ok " \ufffd$\n" ∧
    (ofTarget "a:1").capture tornHost = .error (.refused "a:1" 3 "\ufffdno") ∧
    String.ofList (decode ([0xE2,0x82] ++ (utf8 "$" ++ [0x0A]))) = "\ufffd$\n" := by
  have shown : tornHost.launch "tmux" ((ofTarget "a:1").withEscapes true).arguments =
      .ok ⟨0,[0x20,0xE2,0x82,0x24,0x0A],[0x24]⟩ := by decide
  have refused : tornHost.launch "tmux" (ofTarget "a:1").arguments =
      .ok ⟨3,[0x24],[0x20,0xFF,0x6E,0x6F,0x0A]⟩ := by decide
  have serves := (captureVerbatim tornHost ((ofTarget "a:1").withEscapes true)).1 _ shown
  have refuses := (captureVerbatim tornHost (ofTarget "a:1")).1 _ refused
  refine ⟨?_,?_,?_⟩
  · exact serves.2.1 rfl
  · obtain ⟨text,trimmed,told⟩ := refuses.2.2 (by decide)
    rw [told,← trimExactly.mpr trimmed]
    decide
  · exact (captureVerbatim tornHost (ofTarget "a:1")).2.2.2.2 _ _ _ tornFront

end TmuxPane
end PaneWatch
