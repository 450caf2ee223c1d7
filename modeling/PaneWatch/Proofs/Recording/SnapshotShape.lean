import PaneWatch.Proofs.Json.Members
import PaneWatch.Proofs.Recording.RoundTrip

/-! Which JSON stands for a snapshot: an object, of which only the members that name a part
count, or the array of its parts. -/
namespace PaneWatch
open Json

namespace Json.Form

theorem uint32Within {i : Int} : (∃ n : UInt32, (n.toNat : Int) = i) ↔ 0 ≤ i ∧ i ≤ 4294967295 := by
  constructor
  · intro ⟨n,same⟩
    have := n.toNat_lt
    omega
  · intro ⟨least,most⟩
    have kept : (UInt32.ofNat i.toNat).toNat = i.toNat :=
      UInt32.toNat_ofNat_of_lt' (show i.toNat < 4294967296 by omega)
    exact ⟨UInt32.ofNat i.toNat,by omega⟩

theorem uint32Takes {v : Value} {n : UInt32} :
    Form.uint32.ofValue? v = some n ↔ v = .integer n.toNat := by
  constructor
  · intro taken
    obtain ⟨i,same,kept⟩ := integerTakes.mp taken
    subst v
    split at kept
    · rename_i inRange
      cases kept
      have back : (UInt32.ofNat i.toNat).toNat = i.toNat := UInt32.toNat_ofNat_of_lt inRange.2
      rw [back,Int.toNat_of_nonneg inRange.1]
    · cases kept
  · intro same
    subst v
    exact uint32Back n

end Json.Form

def Mode.Stands (v : Value) (m : Mode) : Prop :=
  v = .string m.label ∨ v = .object [(m.label,.null)]

theorem Mode.ofLabelExactly {k : String} {m : Mode} : Mode.ofLabel? k = some m ↔ k = m.label := by
  constructor
  · intro found
    have named := List.find?_some found
    exact (of_decide_eq_true named).symm
  · intro same
    subst k
    cases m <;> rfl

theorem Mode.formTakes {v : Value} {m : Mode} :
    Mode.form.ofValue? v = some m ↔ Mode.Stands v m := by
  simp [Mode.form,Form.labelTakes,Mode.ofLabelExactly,Mode.Stands]

def Timestamp.Stands (v : Value) (t : Timestamp) : Prop :=
  ∃ text, v = .string text ∧ Timestamp.ofText? text.toList = some t

theorem Timestamp.formTakes {v : Value} {t : Timestamp} :
    Timestamp.form.ofValue? v = some t ↔ Timestamp.Stands v t := by
  simp only [Timestamp.form,Form.refine,Option.bind_eq_some_iff,Form.stringTakes,Timestamp.Stands]

namespace Snapshot

def keys : List String := ["iteration","content","elapsed_time","mode","captured_at"]

structure Shows (ms : List (String × Value)) (s : Snapshot) : Prop where
  once : ∀ k ∈ keys, Once k ms
  iteration : ("iteration",.integer s.iteration.toNat) ∈ ms
  content : ("content",.string s.content) ∈ ms
  elapsed : MayShow "elapsed_time" (fun v text => v = .string text) ms s.elapsed
  mode : MayShow "mode" Mode.Stands ms s.mode
  capturedAt : ∃ v, ("captured_at",v) ∈ ms ∧ Timestamp.Stands v s.capturedAt

/- The shape alone of the members that show some snapshot. An integer is one by the way it is
written, which minus zero is not. -/
structure Shaped (ms : List (String × Value)) : Prop where
  once : ∀ k ∈ keys, Once k ms
  iteration : ∃ i : Int, 0 ≤ i ∧ i ≤ 4294967295 ∧ ("iteration",.integer i) ∈ ms
  content : ∃ text, ("content",.string text) ∈ ms
  elapsed : ∀ v, ("elapsed_time",v) ∈ ms → v = .null ∨ ∃ text, v = .string text
  mode : ∀ v, ("mode",v) ∈ ms → v = .null ∨ ∃ m, Mode.Stands v m
  capturedAt : ∃ v t, ("captured_at",v) ∈ ms ∧ Timestamp.Stands v t

namespace Draft

def parts : List (DraftPart Draft) :=
  [⟨"iteration",iteration,fun a d => { d with iteration := some a },Form.uint32⟩,
    ⟨"content",content,fun a d => { d with content := some a },Form.string⟩,
    ⟨"elapsed_time",elapsed,fun a d => { d with elapsed := some a },Form.string.nullable⟩,
    ⟨"mode",mode,fun a d => { d with mode := some a },Mode.form.nullable⟩,
    ⟨"captured_at",capturedAt,fun a d => { d with capturedAt := some a },Timestamp.form⟩]

theorem partsSeparate : Separate parts blank where
  empty := by simp [parts,blank]
  names := by decide
  own := by simp [parts]
  others := by simp [parts]
  whole := by
    intro d e same
    cases d
    cases e
    simpa [parts] using same

theorem finishExactly {d : Draft} {s : Snapshot} : d.finish = some s ↔
    d.iteration = some s.iteration ∧ d.content = some s.content ∧ d.elapsed.join = s.elapsed ∧
      d.mode.join = s.mode ∧ d.capturedAt = some s.capturedAt := by
  constructor
  · intro done
    simp only [finish,bind,Option.bind_eq_some_iff] at done
    obtain ⟨_,iteration,_,content,_,capturedAt,same⟩ := done
    cases same
    exact ⟨iteration,content,rfl,rfl,capturedAt⟩
  · intro held
    obtain ⟨iteration,content,elapsed,mode,capturedAt⟩ := held
    simp [finish,iteration,content,elapsed,mode,capturedAt]

end Draft

theorem elapsedTakes (v : Value) (text? : Option String) :
    Form.string.nullable.ofValue? v = some text? ↔
      NullOr (fun v text => v = .string text) v text? :=
  nullableTakes (fun _ _ => Form.stringTakes) nofun v text?

theorem modeTakes (v : Value) (m? : Option Mode) :
    Mode.form.nullable.ofValue? v = some m? ↔ NullOr Mode.Stands v m? :=
  nullableTakes (fun _ _ => Mode.formTakes) (by simp [Mode.Stands]) v m?

theorem objectTakes {ms : List (String × Value)} {s : Snapshot} :
    form.ofValue? (.object ms) = some s ↔ Shows ms s := by
  have parts : form = Form.record (Draft.parts.map DraftPart.slot) Draft.blank Draft.finish := rfl
  rw [parts,Draft.partsSeparate.recordExactly]
  constructor
  · intro ⟨d,taken,done⟩
    obtain ⟨iteration,content,elapsed,mode,capturedAt⟩ := Draft.finishExactly.mp done
    simp only [Draft.parts,List.forall_mem_cons] at taken
    obtain ⟨takenIteration,takenContent,takenElapsed,takenMode,takenCapturedAt,_⟩ := taken
    rw [iteration,takenRequired @Form.uint32Takes] at takenIteration
    rw [content,takenRequired @Form.stringTakes] at takenContent
    rw [capturedAt,takenRequired @Timestamp.formTakes] at takenCapturedAt
    have shownElapsed := (takenOptional elapsedTakes).mp ⟨_,takenElapsed,elapsed⟩
    have shownMode := (takenOptional modeTakes).mp ⟨_,takenMode,mode⟩
    obtain ⟨onceIteration,_,shownIteration,rfl⟩ := takenIteration
    obtain ⟨onceContent,_,shownContent,rfl⟩ := takenContent
    exact ⟨by simp [keys,onceIteration,onceContent,shownElapsed.1,shownMode.1,takenCapturedAt.1],
      shownIteration,shownContent,shownElapsed.2,shownMode.2,takenCapturedAt.2⟩
  · intro shows
    obtain ⟨heldElapsed,takenElapsed,elapsed⟩ := (takenOptional elapsedTakes).mpr
      ⟨shows.once "elapsed_time" (by simp [keys]),shows.elapsed⟩
    obtain ⟨heldMode,takenMode,mode⟩ := (takenOptional modeTakes).mpr
      ⟨shows.once "mode" (by simp [keys]),shows.mode⟩
    have takenIteration := (takenRequired @Form.uint32Takes).mpr
      ⟨shows.once "iteration" (by simp [keys]),_,shows.iteration,rfl⟩
    have takenContent := (takenRequired @Form.stringTakes).mpr
      ⟨shows.once "content" (by simp [keys]),_,shows.content,rfl⟩
    have takenCapturedAt := (takenRequired @Timestamp.formTakes).mpr
      ⟨shows.once "captured_at" (by simp [keys]),shows.capturedAt⟩
    refine ⟨⟨some s.iteration,some s.content,heldElapsed,heldMode,some s.capturedAt⟩,?_,
      Draft.finishExactly.mpr ⟨rfl,rfl,elapsed,mode,rfl⟩⟩
    simp only [Draft.parts,List.forall_mem_cons]
    exact ⟨takenIteration,takenContent,takenElapsed,takenMode,takenCapturedAt,nofun⟩

theorem shapedExactly (ms : List (String × Value)) : (∃ s, Shows ms s) ↔ Shaped ms := by
  constructor
  · intro ⟨s,shows⟩
    have onceElapsed := shows.once "elapsed_time" (by simp [keys])
    have onceMode := shows.once "mode" (by simp [keys])
    have within := Form.uint32Within.mp ⟨s.iteration,rfl⟩
    obtain ⟨v,given,stands⟩ := shows.capturedAt
    exact ⟨shows.once,⟨_,within.1,within.2,shows.iteration⟩,⟨_,shows.content⟩,
      (mayShowSome onceElapsed).mp ⟨_,shows.elapsed⟩,(mayShowSome onceMode).mp ⟨_,shows.mode⟩,
      ⟨v,_,given,stands⟩⟩
  · intro shaped
    have onceElapsed := shaped.once "elapsed_time" (by simp [keys])
    have onceMode := shaped.once "mode" (by simp [keys])
    obtain ⟨i,least,most,iteration⟩ := shaped.iteration
    obtain ⟨text,content⟩ := shaped.content
    obtain ⟨elapsed,shownElapsed⟩ := (mayShowSome onceElapsed).mpr shaped.elapsed
    obtain ⟨mode,shownMode⟩ := (mayShowSome onceMode).mpr shaped.mode
    obtain ⟨v,t,given,stands⟩ := shaped.capturedAt
    obtain ⟨n,rfl⟩ := Form.uint32Within.mpr ⟨least,most⟩
    exact ⟨⟨⟨n,text,elapsed,mode⟩,t⟩,shaped.once,iteration,content,shownElapsed,shownMode,
      ⟨v,given,stands⟩⟩

inductive Stands : Value → Snapshot → Prop
  | object {ms : List (String × Value)} {s : Snapshot} (shows : Shows ms s) :
      Stands (.object ms) s
  | array {s : Snapshot} {elapsed mode capturedAt : Value}
      (shownElapsed : NullOr (fun v text => v = .string text) elapsed s.elapsed)
      (shownMode : NullOr Mode.Stands mode s.mode)
      (shownCapturedAt : Timestamp.Stands capturedAt s.capturedAt) :
      Stands (.array [.integer s.iteration.toNat,.string s.content,elapsed,mode,capturedAt]) s

theorem arrayTakes {vs : List Value} {s : Snapshot} :
    form.ofValue? (.array vs) = some s ↔ Stands (.array vs) s := by
  have items : form.ofValue? (.array vs) =
      (Form.fillItems (Draft.parts.map DraftPart.slot) vs Draft.blank).bind Draft.finish := rfl
  rw [items]
  simp only [Option.bind_eq_some_iff,Draft.parts,List.map_cons,List.map_nil,
    DraftPart.fillItemsCons,fillItemsNil]
  constructor
  · intro taken
    obtain ⟨d,filled,done⟩ := taken
    obtain ⟨_,_,_,rfl,iteration,_,_,_,rfl,content,_,_,_,rfl,elapsed,_,_,_,rfl,mode,_,_,_,rfl,
      capturedAt,rfl,rfl⟩ := filled
    cases done
    cases Form.uint32Takes.mp iteration
    cases Form.stringTakes.mp content
    exact Stands.array (s := ⟨⟨_,_,_,_⟩,_⟩) ((elapsedTakes _ _).mp elapsed)
      ((modeTakes _ _).mp mode) (Timestamp.formTakes.mp capturedAt)
  · intro stands
    cases stands with
    | array shownElapsed shownMode shownCapturedAt =>
      have elapsed := (elapsedTakes _ _).mpr shownElapsed
      have mode := (modeTakes _ _).mpr shownMode
      have capturedAt := Timestamp.formTakes.mpr shownCapturedAt
      exact ⟨_,⟨_,_,_,rfl,Form.uint32Back s.iteration,_,_,_,rfl,rfl,_,_,_,rfl,elapsed,_,_,_,rfl,
        mode,_,_,_,rfl,capturedAt,rfl,rfl⟩,rfl⟩

theorem formTakes (v : Value) (s : Snapshot) : form.ofValue? v = some s ↔ Stands v s := by
  cases v with
  | object ms =>
    rw [objectTakes]
    constructor
    · exact .object
    · intro stands
      cases stands
      assumption
  | array vs => exact arrayTakes
  | _ =>
    constructor
    · intro taken
      cases taken
    · intro stands
      cases stands

end Snapshot

end PaneWatch
