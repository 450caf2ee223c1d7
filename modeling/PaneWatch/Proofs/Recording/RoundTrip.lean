import PaneWatch.Proofs.Json.FormText
import PaneWatch.Proofs.Time.WrittenTime
import PaneWatch.Recording

/-! What is written of a mode, a snapshot or a recording is read back as it was, off the value
and off its text. The forms agree on the two, so only the values have to be looked at. -/
namespace PaneWatch
open Json

theorem Json.Slot.agrees {δ α : Type} (name : String) (get : δ → Option α) (set : α → δ → δ)
    {form : Form α} (agrees : form.Agrees) : (Slot.of name get set form).form.Agrees :=
  Form.refineAgrees agrees _

namespace Json.Form

theorem wordExact {i : Int} (small : i.natAbs ≤ 2^32) : Exact i :=
  small.trans_lt (by decide +kernel)

theorem uint32Agrees : Form.uint32.Agrees := by
  refine boundedAgrees fun i large => if_neg fun inRange => large (wordExact ?_)
  have : UInt32.size = 2^32 := rfl
  omega

theorem int32Agrees : Form.int32.Agrees :=
  boundedAgrees fun _ large => if_neg fun inRange => large (wordExact (by omega))

theorem uint32Back (n : UInt32) : Form.uint32.ofValue? (.integer n.toNat) = some n := by
  have inRange : (0 : Int) ≤ n.toNat ∧ n.toNat < UInt32.size := ⟨Int.natCast_nonneg _,n.toNat_lt⟩
  simp only [Form.uint32,refine,Form.integer,Option.bind_some,Int.toNat_natCast,if_pos inRange,
    UInt32.ofNat_toNat]

theorem int32Back (n : Int32) : Form.int32.ofValue? (.integer n.toInt) = some n := by
  have inRange : -2147483648 ≤ n.toInt ∧ n.toInt ≤ 2147483647 :=
    ⟨n.minValue_le_toInt,n.toInt_le⟩
  simp only [Form.int32,refine,Form.integer,Option.bind_some,if_pos inRange,Int32.ofInt_toInt]

theorem nullableBack {α : Type} {form : Form α} {write : α → Value}
    (back : ∀ a, form.ofValue? (write a) = some a) (notNull : ∀ a, write a ≠ .null)
    (a : Option α) : form.nullable.ofValue? (.ofOption write a) = some a := by
  cases a with
  | none => rfl
  | some a =>
    simp only [Value.ofOption,nullable]
    split
    · exact absurd ‹_› (notNull a)
    · rw [back]; rfl

theorem listBack {α : Type} {form : Form α} {write : α → Value}
    (back : ∀ a, form.ofValue? (write a) = some a) (as : List α) :
    form.list.ofValue? (.array (as.map write)) = some as := by
  induction as with
  | nil => rfl
  | cons a as ih =>
    simp only [list] at ih ⊢
    simp [back,ih]

end Json.Form

namespace Json.Value

variable {r : Rigour}

theorem stringLawful (s : String) : (string s).Lawful r := trivial

theorem naturalLawful {n : Nat} (small : n < 2^64) : (integer n).Lawful r :=
  fun _ => small.trans_le (by decide +kernel)

theorem optionLawful {α : Type} {write : α → Value} (lawful : ∀ a, (write a).Lawful r)
    (a : Option α) : (ofOption write a).Lawful r := by
  cases a with
  | none => exact trivial
  | some a => exact lawful a

theorem arrayLawful {α : Type} {write : α → Value} (lawful : ∀ a, (write a).Lawful r)
    (as : List α) : (array (as.map write)).Lawful r := by
  induction as with
  | nil => exact trivial
  | cons a as ih => exact ⟨lawful a,ih⟩

end Json.Value

namespace Mode

theorem formAgrees : form.Agrees := Form.labelAgrees _

theorem valueBack (m : Mode) : form.ofValue? m.toValue = some m := by
  cases m <;> rfl

end Mode

namespace Timestamp

theorem formAgrees : form.Agrees := Form.refineAgrees Form.stringAgrees _

theorem valueBack (t : Timestamp) : form.ofValue? t.toValue = some t := by
  simp [form,toValue,Form.refine,Form.string,textRead]

end Timestamp

namespace Snapshot

theorem formAgrees : form.Agrees := by
  refine Form.recordAgrees (fun slot mem => ?_) _ _
  simp only [Draft.slots,List.mem_cons,List.not_mem_nil,or_false] at mem
  rcases mem with rfl | rfl | rfl | rfl | rfl
  · exact Slot.agrees _ _ _ Form.uint32Agrees
  · exact Slot.agrees _ _ _ Form.stringAgrees
  · exact Slot.agrees _ _ _ (Form.nullableAgrees Form.stringAgrees)
  · exact Slot.agrees _ _ _ (Form.nullableAgrees Mode.formAgrees)
  · exact Slot.agrees _ _ _ Timestamp.formAgrees

theorem valueBack (s : Snapshot) : form.ofValue? s.toValue = some s := by
  have iteration := Form.uint32Back s.iteration
  have ofString : ∀ text, Form.string.ofValue? (.string text) = some text := fun _ => rfl
  have elapsed := Form.nullableBack ofString (fun _ => nofun) s.elapsed
  have mode := Form.nullableBack Mode.valueBack (fun _ => nofun) s.mode
  have capturedAt := Timestamp.valueBack s.capturedAt
  simp [form,toValue,Form.record,Form.fillMembers,Draft.slots,Draft.blank,Draft.finish,Slot.of,
    Form.refine,iteration,ofString,elapsed,mode,capturedAt]

theorem lawful {r : Rigour} (s : Snapshot) : s.toValue.Lawful r :=
  ⟨Value.naturalLawful (by have := s.iteration.toNat_lt; omega),trivial,
    Value.optionLawful Value.stringLawful s.elapsed,
    Value.optionLawful (fun m : Mode => Value.stringLawful m.label) s.mode,
    Value.stringLawful _,trivial⟩

end Snapshot

namespace Recording

theorem formAgrees : form.Agrees := by
  refine Form.recordAgrees (fun slot mem => ?_) _ _
  simp only [Draft.slots,List.mem_cons,List.not_mem_nil,or_false] at mem
  rcases mem with rfl | rfl | rfl
  · exact Slot.agrees _ _ _ (Form.listAgrees Snapshot.formAgrees)
  · exact Slot.agrees _ _ _ (Form.nullableAgrees Form.int32Agrees)
  · exact Slot.agrees _ _ _ Form.boolAgrees

theorem valueBack (r : Recording) : form.ofValue? r.toValue = some r := by
  have snapshots : Snapshot.form.list.ofValue? (.array (r.snapshots.map Snapshot.toValue)) =
      some r.snapshots := Form.listBack Snapshot.valueBack r.snapshots
  have exitCode := Form.nullableBack Form.int32Back (fun _ => nofun) r.exitCode
  have timedOut : Form.bool.ofValue? (.bool r.timedOut) = some r.timedOut := rfl
  simp [form,toValue,Form.record,Form.fillMembers,Draft.slots,Draft.blank,Draft.finish,Slot.of,
    Form.refine,snapshots,exitCode,timedOut,exitCodeValue]

theorem exitCodeLawful {rigour : Rigour} (r : Recording) : r.exitCodeValue.Lawful rigour := by
  have small : ∀ code : Int32, (Value.integer code.toInt).Lawful rigour := by
    intro code _
    have least := code.minValue_le_toInt
    have most := code.toInt_lt
    have : Int32.minValue.toInt = -2147483648 := rfl
    exact Form.wordExact (by omega)
  exact Value.optionLawful small r.exitCode

theorem lawful {rigour : Rigour} (r : Recording) : r.toValue.Lawful rigour :=
  ⟨Value.arrayLawful Snapshot.lawful r.snapshots,exitCodeLawful r,trivial,trivial⟩

end Recording

theorem writtenReadsBack :
    (∀ r : Recording, Recording.form.ofText r.json = .ok r ∧
      Recording.form.ofValue? r.toValue = some r) ∧
    (∀ s : Snapshot, Snapshot.form.ofText s.toValue.compact = .ok s ∧
      Snapshot.form.ofValue? s.toValue = some s) ∧
    ∀ m : Mode, Mode.form.ofText m.toValue.compact = .ok m ∧
      Mode.form.ofValue? m.toValue = some m :=
  ⟨fun r => ⟨Form.textBack Recording.formAgrees compactBlank r.lawful r.valueBack,r.valueBack⟩,
    fun s => ⟨Form.textBack Snapshot.formAgrees compactBlank s.lawful s.valueBack,s.valueBack⟩,
    fun m => ⟨Form.textBack Mode.formAgrees compactBlank (Value.stringLawful m.label) m.valueBack,
      m.valueBack⟩⟩

end PaneWatch
