import PaneWatch.Proofs.Json.CutText
import PaneWatch.Proofs.Recording.RoundTrip

/-! The text of a recording that was cut short. Wherever the cut is, in whatever snapshot and
whatever it holds, the reader says that the text ended too soon, and never anything else. -/
namespace PaneWatch
open Json

namespace Json.Form

theorem uint32ReadsOut (n : UInt32) : Form.uint32.ReadsOut (.integer n.toNat) n := by
  have size : UInt32.size = 2^32 := rfl
  have most := n.toNat_lt
  refine integerReadsOut uint32Agrees (uint32Back n) ?_
  intro j near
  have near : 0 ≤ j ∧ j ≤ n.toNat ∨ (n.toNat : Int) ≤ j ∧ j < 0 := near
  exact ⟨_,if_pos (by omega)⟩

theorem int32ReadsOut (n : Int32) : Form.int32.ReadsOut (.integer n.toInt) n := by
  have least : -2147483648 ≤ n.toInt := n.minValue_le_toInt
  have most : n.toInt ≤ 2147483647 := n.toInt_le
  refine integerReadsOut int32Agrees (int32Back n) ?_
  intro j near
  have near : 0 ≤ j ∧ j ≤ n.toInt ∨ n.toInt ≤ j ∧ j < 0 := near
  exact ⟨_,if_pos (by omega)⟩

end Json.Form

theorem Mode.readsOut (m : Mode) : Mode.form.ReadsOut m.toValue m :=
  Form.labelReadsOut (by cases m <;> rfl)

theorem Timestamp.readsOut (t : Timestamp) : Timestamp.form.ReadsOut t.toValue t :=
  Form.refinedStringReadsOut (by rw [String.toList_ofList]; exact textRead t)

namespace Snapshot

theorem fills (s : Snapshot) : Form.Fills Draft.slots Draft.blank
    [("iteration",.integer s.iteration.toNat),("content",.string s.content),
      ("elapsed_time",.ofOption .string s.elapsed),("mode",.ofOption Mode.toValue s.mode),
      ("captured_at",s.capturedAt.toValue)] := by
  have elapsed := Form.nullableReadsOut Form.stringReadsOut Value.stringLawful (fun _ => nofun) rfl
    s.elapsed
  have mode := Form.nullableReadsOut Mode.readsOut (fun m => Value.stringLawful m.label)
    (fun _ => nofun) rfl s.mode
  apply Form.Fills.member _ rfl rfl (Form.slotReadsOut (Form.uint32ReadsOut s.iteration))
  apply Form.Fills.member _ rfl rfl (Form.slotReadsOut (Form.stringReadsOut s.content))
  apply Form.Fills.member _ rfl rfl (Form.slotReadsOut elapsed)
  apply Form.Fills.member _ rfl rfl (Form.slotReadsOut mode)
  apply Form.Fills.member _ rfl rfl (Form.slotReadsOut s.capturedAt.readsOut)
  exact Form.Fills.none _

theorem readsOut (s : Snapshot) : form.ReadsOut s.toValue s :=
  Form.closedReadsOut formAgrees s.lawful s.valueBack
    fun depth _ cut => Form.recordRunsOut s.fills depth cut

end Snapshot

namespace Recording

theorem snapshotsReadOut (snapshots : List Snapshot) :
    Snapshot.form.list.ReadsOut (.array (snapshots.map Snapshot.toValue)) snapshots :=
  Form.closedReadsOut (Form.listAgrees Snapshot.formAgrees)
    (Value.arrayLawful Snapshot.lawful snapshots) (Form.listBack Snapshot.valueBack snapshots)
    fun depth _ cut => Form.listRunsOut Snapshot.readsOut Snapshot.lawful depth cut

theorem exitCodeReadsOut (r : Recording) :
    Form.int32.nullable.ReadsOut r.exitCodeValue r.exitCode :=
  Form.nullableReadsOut Form.int32ReadsOut (fun _ => nofun) (fun _ => nofun) rfl r.exitCode

theorem fills (r : Recording) : Form.Fills Draft.slots Draft.blank
    [("states",.array (r.snapshots.map Snapshot.toValue)),("final_exit_code",r.exitCodeValue),
      ("timed_out",.bool r.timedOut)] := by
  apply Form.Fills.member _ rfl rfl (Form.slotReadsOut (snapshotsReadOut r.snapshots))
  apply Form.Fills.member _ rfl rfl (Form.slotReadsOut (exitCodeReadsOut r))
  apply Form.Fills.member _ rfl rfl (Form.slotReadsOut (Form.boolReadsOut r.timedOut))
  exact Form.Fills.none _

theorem truncationRecognised (r : Recording) (w : List Char) (front : w <+: r.json)
    (proper : w ≠ r.json) : form.ofText w = .error .cutShort := by
  have short : form.read w = .error .cutShort :=
    Form.recordRunsOut r.fills 0 (properCut front proper)
  unfold Form.ofText whole
  rw [short]
  rfl

def noted : Recording := ⟨[⟨⟨7,"ls\x01",none,some .auto⟩,Timestamp.epoch⟩],some (-17),true⟩

theorem truncationRecognisedInside :
    form.ofText "\x7b\"states\":[\x7b\"iteration\":7,\"content\":\"ls\\u00".toList =
      .error .cutShort ∧
    (noted.json.take 140).drop 138 = ['-','1'] ∧
    form.ofText (noted.json.take 140) = .error .cutShort := by
  refine ⟨?_,by decide +kernel,?_⟩
  · exact truncationRecognised noted _ (by decide +kernel) (by decide +kernel)
  · exact truncationRecognised noted _ (List.take_prefix _ _) (by decide +kernel)

end Recording
end PaneWatch
