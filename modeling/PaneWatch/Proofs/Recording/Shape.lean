import PaneWatch.Proofs.Recording.SnapshotShape

/-! Which JSON objects stand for a recording. Its snapshots may stand as objects and as arrays,
in any number. What is said of the values holds of their texts. -/
namespace PaneWatch
open Json

namespace Json.Form

theorem int32Within {i : Int} : (∃ n : Int32, n.toInt = i) ↔ -2147483648 ≤ i ∧ i ≤ 2147483647 := by
  constructor
  · intro ⟨n,same⟩
    have least := n.le_toInt
    have most := n.toInt_lt
    omega
  · intro ⟨least,most⟩
    exact ⟨Int32.ofInt i,Int32.toInt_ofInt_of_le (by omega) (by omega)⟩

theorem int32Takes {v : Value} {n : Int32} :
    Form.int32.ofValue? v = some n ↔ v = .integer n.toInt := by
  constructor
  · intro taken
    obtain ⟨i,same,kept⟩ := integerTakes.mp taken
    subst v
    split at kept
    · rename_i inRange
      cases kept
      rw [Int32.toInt_ofInt_of_le (by omega) (by omega)]
    · cases kept
  · intro same
    subst v
    exact int32Back n

end Json.Form

namespace Recording

def keys : List String := ["states","final_exit_code","timed_out"]

structure Shows (ms : List (String × Value)) (r : Recording) : Prop where
  once : ∀ k ∈ keys, Once k ms
  snapshots : ∃ vs, ("states",.array vs) ∈ ms ∧ List.Forall₂ Snapshot.Stands vs r.snapshots
  exitCode : MayShow "final_exit_code" (fun v code => v = .integer code.toInt) ms r.exitCode
  timedOut : ("timed_out",.bool r.timedOut) ∈ ms

structure Shaped (ms : List (String × Value)) : Prop where
  once : ∀ k ∈ keys, Once k ms
  snapshots : ∃ vs, ("states",.array vs) ∈ ms ∧ ∀ v ∈ vs, ∃ s, Snapshot.Stands v s
  exitCode : ∀ v, ("final_exit_code",v) ∈ ms →
    v = .null ∨ ∃ i : Int, -2147483648 ≤ i ∧ i ≤ 2147483647 ∧ v = .integer i
  timedOut : ∃ b, ("timed_out",.bool b) ∈ ms

namespace Draft

def parts : List (DraftPart Draft) :=
  [⟨"states",snapshots,fun a d => { d with snapshots := some a },Snapshot.form.list⟩,
    ⟨"final_exit_code",exitCode,fun a d => { d with exitCode := some a },Form.int32.nullable⟩,
    ⟨"timed_out",timedOut,fun a d => { d with timedOut := some a },Form.bool⟩]

theorem partsSeparate : Separate parts blank where
  empty := by simp [parts,blank]
  names := by decide
  own := by simp [parts]
  others := by simp [parts]
  whole := by
    intro d e same
    cases d
    cases e
    simpa [parts] using same

theorem finishExactly {d : Draft} {r : Recording} : d.finish = some r ↔
    d.snapshots = some r.snapshots ∧ d.exitCode.join = r.exitCode ∧
      d.timedOut = some r.timedOut := by
  constructor
  · intro done
    simp only [finish,bind,Option.bind_eq_some_iff] at done
    obtain ⟨_,snapshots,_,timedOut,same⟩ := done
    cases same
    exact ⟨snapshots,rfl,timedOut⟩
  · intro held
    obtain ⟨snapshots,exitCode,timedOut⟩ := held
    simp [finish,snapshots,exitCode,timedOut]

end Draft

theorem exitCodeTakes (v : Value) (code? : Option Int32) :
    Form.int32.nullable.ofValue? v = some code? ↔
      NullOr (fun v code => v = .integer code.toInt) v code? :=
  nullableTakes (fun _ _ => Form.int32Takes) nofun v code?

theorem snapshotsTake (v : Value) (ss : List Snapshot) :
    Snapshot.form.list.ofValue? v = some ss ↔
      ∃ vs, v = .array vs ∧ List.Forall₂ Snapshot.Stands vs ss :=
  Form.listTakes Snapshot.formTakes

theorem objectTakes {ms : List (String × Value)} {r : Recording} :
    form.ofValue? (.object ms) = some r ↔ Shows ms r := by
  have parts : form = Form.record (Draft.parts.map DraftPart.slot) Draft.blank Draft.finish := rfl
  rw [parts,Draft.partsSeparate.recordExactly]
  constructor
  · intro ⟨d,taken,done⟩
    obtain ⟨snapshots,exitCode,timedOut⟩ := Draft.finishExactly.mp done
    simp only [Draft.parts,List.forall_mem_cons] at taken
    obtain ⟨takenSnapshots,takenExitCode,takenTimedOut,_⟩ := taken
    rw [snapshots,takenRequired snapshotsTake] at takenSnapshots
    rw [timedOut,takenRequired @Form.boolTakes] at takenTimedOut
    have shownExitCode := (takenOptional exitCodeTakes).mp ⟨_,takenExitCode,exitCode⟩
    obtain ⟨onceSnapshots,_,shownSnapshots,vs,rfl,stand⟩ := takenSnapshots
    obtain ⟨onceTimedOut,_,shownTimedOut,rfl⟩ := takenTimedOut
    exact ⟨by simp [keys,onceSnapshots,onceTimedOut,shownExitCode.1],
      ⟨vs,shownSnapshots,stand⟩,shownExitCode.2,shownTimedOut⟩
  · intro shows
    obtain ⟨vs,given,stand⟩ := shows.snapshots
    have takenSnapshots := (takenRequired snapshotsTake).mpr
      ⟨shows.once "states" (by simp [keys]),_,given,vs,rfl,stand⟩
    obtain ⟨heldExitCode,takenExitCode,exitCode⟩ := (takenOptional exitCodeTakes).mpr
      ⟨shows.once "final_exit_code" (by simp [keys]),shows.exitCode⟩
    have takenTimedOut := (takenRequired @Form.boolTakes).mpr
      ⟨shows.once "timed_out" (by simp [keys]),_,shows.timedOut,rfl⟩
    refine ⟨⟨some r.snapshots,heldExitCode,some r.timedOut⟩,?_,
      Draft.finishExactly.mpr ⟨rfl,exitCode,rfl⟩⟩
    simp only [Draft.parts,List.forall_mem_cons]
    exact ⟨takenSnapshots,takenExitCode,takenTimedOut,nofun⟩

theorem everyStands {vs : List Value} :
    (∃ ss, List.Forall₂ Snapshot.Stands vs ss) ↔ ∀ v ∈ vs, ∃ s, Snapshot.Stands v s := by
  induction vs with
  | nil => simp
  | cons v vs ih =>
    rw [List.forall_mem_cons,← ih]
    constructor
    · intro ⟨ss,stand⟩
      cases stand with
      | cons first rest => exact ⟨⟨_,first⟩,_,rest⟩
    · intro ⟨⟨s,first⟩,ss,rest⟩
      exact ⟨s::ss,.cons first rest⟩

theorem exitCodeWithin {v : Value} : (∃ code : Int32, v = .integer code.toInt) ↔
    ∃ i : Int, -2147483648 ≤ i ∧ i ≤ 2147483647 ∧ v = .integer i := by
  constructor
  · intro ⟨code,same⟩
    obtain ⟨least,most⟩ := Form.int32Within.mp ⟨code,rfl⟩
    exact ⟨code.toInt,least,most,same⟩
  · intro ⟨i,least,most,same⟩
    obtain ⟨code,rfl⟩ := Form.int32Within.mpr ⟨least,most⟩
    exact ⟨code,same⟩

theorem shapedExactly (ms : List (String × Value)) : (∃ r, Shows ms r) ↔ Shaped ms := by
  constructor
  · intro ⟨r,shows⟩
    obtain ⟨vs,given,stand⟩ := shows.snapshots
    have onceExitCode := shows.once "final_exit_code" (by simp [keys])
    have exitCode := (mayShowSome onceExitCode).mp ⟨_,shows.exitCode⟩
    simp only [exitCodeWithin] at exitCode
    exact ⟨shows.once,⟨vs,given,everyStands.mp ⟨_,stand⟩⟩,exitCode,⟨_,shows.timedOut⟩⟩
  · intro shaped
    obtain ⟨vs,given,stand⟩ := shaped.snapshots
    obtain ⟨ss,stand⟩ := everyStands.mpr stand
    have onceExitCode := shaped.once "final_exit_code" (by simp [keys])
    have exitCode := shaped.exitCode
    simp only [← exitCodeWithin] at exitCode
    obtain ⟨code?,shownExitCode⟩ := (mayShowSome onceExitCode).mpr exitCode
    obtain ⟨timedOut,shownTimedOut⟩ := shaped.timedOut
    exact ⟨⟨ss,code?,timedOut⟩,shaped.once,⟨vs,given,stand⟩,shownExitCode,shownTimedOut⟩

end Recording

theorem objectsDecode :
    DecodesObjects Snapshot.form Snapshot.keys Snapshot.Shaped Snapshot.Shows ∧
      DecodesObjects Recording.form Recording.keys Recording.Shaped Recording.Shows :=
  ⟨decodesObjects Snapshot.formAgrees (fun _ _ => Snapshot.objectTakes) Snapshot.shapedExactly
      (Snapshot.Draft.partsSeparate.recordAnyOrder _),
    decodesObjects Recording.formAgrees (fun _ _ => Recording.objectTakes) Recording.shapedExactly
      (Recording.Draft.partsSeparate.recordAnyOrder _)⟩

theorem objectsDecodeShuffled :
    let ms : List (String × Value) := [("mode",.object [("auto",.null)]),
      ("seen",.decimal "1e999".toList),("captured_at",.string "1970-01-01T01:00:00+01:00"),
      ("content",.string "▶ auto"),("iteration",.integer 7)]
    (Value.object ms).WellFormed ∧ Snapshot.Shaped ms ∧
      Snapshot.form.ofText (Value.object ms).compact =
        .ok ⟨⟨7,"▶ auto",none,some .auto⟩,Timestamp.epoch⟩ := by
  intro ms
  have lawful : (Value.object ms).WellFormed :=
    ⟨⟨trivial,trivial⟩,rfl,trivial,trivial,nofun,trivial⟩
  have epoch : Timestamp.Stands (.string "1970-01-01T01:00:00+01:00") Timestamp.epoch :=
    ⟨_,rfl,by decide +kernel⟩
  have shows : Snapshot.Shows ms ⟨⟨7,"▶ auto",none,some .auto⟩,Timestamp.epoch⟩ := by
    refine ⟨by decide,?_,?_,?_,?_,?_⟩
    · simp [ms]
    · simp [ms]
    · exact .inr ⟨by simp [ms],rfl⟩
    · exact .inl ⟨_,List.mem_cons_self,.given (.inr rfl)⟩
    · exact ⟨_,by simp [ms],epoch⟩
  have accepted := (objectsDecode.1.shows compactBlank lawful _).mpr shows
  exact ⟨lawful,(objectsDecode.1.accepts compactBlank lawful).mp ⟨_,accepted⟩,accepted⟩

end PaneWatch
