import PaneWatch.Proofs.Time.Millis
import PaneWatch.Proofs.Watch.Lockstep

/-! Sessions that never wrap the count of their clock. A stage with a gauge keeps whether a sleep
ever turned its clock back, which is how a wrap shows; nothing else about it is different, so a
wait on it is the wait on the stage with the gauge read at its end. Once every operation of a
session has returned, following the waits for more rounds finds no further sleep. -/
namespace PaneWatch

structure Gauge (σ : Type) where
  stage : σ
  wrapped : Bool

namespace Gauge

variable {σ ε : Type}

def start (s : σ) : Gauge σ := ⟨s,false⟩

variable [Stage σ ε]

def turnedBack (s t : σ) : Bool := decide (Stage.now t < Stage.now s)

instance : Stage (Gauge σ) ε where
  now g := Stage.now g.stage
  sleep d g := ⟨Stage.sleep d g.stage,g.wrapped || turnedBack g.stage (Stage.sleep d g.stage)⟩
  capture g :=
    let (outcome,s) := Stage.capture g.stage
    (outcome,⟨s,g.wrapped⟩)
  timeOfDay g := Stage.timeOfDay g.stage

theorem wrappedKept : Watch.Kept fun g : Gauge σ => g.wrapped = true where
  capture := fun before => before
  sleep := fun _ before => Bool.or_eq_true_iff.mpr (.inl before)

theorem notTurnedBack {g : Gauge σ} {d : Span} (steady : ¬ (Stage.sleep d g).wrapped = true) :
    ¬ Stage.now (Stage.sleep d g.stage) < Stage.now g.stage := by
  intro back
  exact steady (Bool.or_eq_true_iff.mpr (.inr (decide_eq_true back)))

theorem lockstep (date : Timestamp → Timestamp) : Watch.Along date (stage : Gauge σ → σ) :=
  .along stage (fun _ => rfl) (fun _ => rfl) (fun _ _ => rfl) (fun _ => rfl)

section Start
open Watch

variable (date : Timestamp → Timestamp) (rounds : Nat) (s : σ)

theorem waitGauged (settings : Settings) (n : UInt32) (timeout : Span) :
    (wait rounds settings n timeout (start s)).1.map (answerDated date) =
        (wait rounds settings n timeout s).1.map (answerDated date) ∧
      (wait rounds settings n timeout (start s)).2.stage = (wait rounds settings n timeout s).2 :=
  (lockstep date).waitAlong rounds settings n timeout (start s)

theorem sequenceGauged (settings : Settings) (lastTarget : UInt32) (timeout budget : Span)
    (last : Option UInt32) :
    (sequence rounds settings lastTarget timeout budget ⟨start s,last⟩).1.map
          (Except.map (Recording.redated date)) =
        (sequence rounds settings lastTarget timeout budget ⟨s,last⟩).1.map
          (Except.map (Recording.redated date)) ∧
      (sequence rounds settings lastTarget timeout budget ⟨start s,last⟩).2.map stage =
        (sequence rounds settings lastTarget timeout budget ⟨s,last⟩).2 :=
  (lockstep date).sequenceAlong rounds settings lastTarget timeout budget ⟨start s,last⟩

theorem terminationGauged (timeout poll : Span) :
    (termination rounds timeout poll (start s)).map id stage =
      termination rounds timeout poll s :=
  (lockstep id).terminationAlong rounds timeout poll (start s)

theorem processExitGauged (timeout poll : Span) :
    (processExit rounds timeout poll (start s)).map id stage =
      processExit rounds timeout poll s :=
  (lockstep id).processExitAlong rounds timeout poll (start s)

end Start

end Gauge

namespace Session
open Scene (undated)
open Watch (Lasting answeredBoth)

/- Whether an operation wraps the count, in an advance or in one of the sleeps it makes. -/
def wraps (rounds : Nat) (s : Session) : Op → Bool
  | .wait n timeout =>
    (Watch.wait rounds s.settings n timeout (Gauge.start s.scene)).2.wrapped
  | .sequence lastTarget timeout budget =>
    (Watch.sequence rounds s.settings lastTarget timeout budget
      ⟨Gauge.start s.scene,s.lastIteration⟩).2.stage.wrapped
  | .termination timeout poll =>
    (Watch.termination rounds timeout poll (Gauge.start s.scene)).2.wrapped
  | .processExit timeout poll =>
    (Watch.processExit rounds timeout poll (Gauge.start s.scene)).2.wrapped
  | .advance d => Gauge.turnedBack s.scene (s.scene.advance d)
  | _ => false

def Steady (rounds : Nat) : Session → List Op → Prop
  | _,[] => True
  | s,op::ops => s.wraps rounds op = false ∧
      ((s.step rounds op).1.isSome = true → Steady rounds (s.step rounds op).2 ops)

instance decideSteady (rounds : Nat) : (s : Session) → (ops : List Op) →
    Decidable (Steady rounds s ops)
  | _,[] => isTrue trivial
  | s,op::ops =>
    have := decideSteady rounds (s.step rounds op).2 ops
    inferInstanceAs (Decidable (_ ∧ _))

theorem stepLasts (s : Session) (op : Op) : Lasting fun rounds => s.step rounds op := by
  cases op with
  | wait n timeout =>
    exact (Watch.waitLasts s.settings n timeout s.scene).through
      (Prod.map (Option.map (answerOf .waited)) s.withScene) fun _ => rfl
  | sequence lastTarget timeout budget =>
    exact (Watch.sequenceLasts s.settings lastTarget timeout budget
      ⟨s.scene,s.lastIteration⟩).through
        (fun x => (x.1.map (answerOf .recorded),(⟨x.2.stage,s.settings,x.2.lastIteration,
          recordingAfter s.recording x.1⟩ : Session))) fun _ => rfl
  | termination timeout poll =>
    exact (Watch.terminationLasts timeout poll s.scene).through
      (Prod.map (Option.map (answerOf fun last => .ended last.1 last.2)) s.withScene)
      fun _ => rfl
  | processExit timeout poll =>
    exact (Watch.processExitLasts timeout poll s.scene).through
      (Prod.map (Option.map (answerOf fun last => .exited last.1 last.2)) s.withScene)
      fun _ => rfl
  | _ => exact fun _ _ _ _ returned _ => returned

theorem wrapsLasts {s : Session} {op : Op} {rounds more : Nat}
    (returned : (s.step rounds op).1.isSome = true) (le : rounds ≤ more) :
    s.wraps more op = s.wraps rounds op := by
  cases op with
  | wait n timeout =>
    obtain ⟨answers,_⟩ := Gauge.waitGauged undated rounds s.scene s.settings n timeout
    rw [step,Prod.map_fst,Option.isSome_map,← answeredBoth answers] at returned
    exact congrArg (fun out => out.2.wrapped) ((Watch.waitLasts _ _ _ _).answered returned le)
  | sequence lastTarget timeout budget =>
    obtain ⟨answers,_⟩ := Gauge.sequenceGauged undated rounds s.scene s.settings lastTarget timeout
      budget s.lastIteration
    rw [step,Option.isSome_map,← answeredBoth answers] at returned
    exact congrArg (fun out => out.2.stage.wrapped)
      ((Watch.sequenceLasts _ _ _ _ _).answered returned le)
  | termination timeout poll =>
    rw [step,← Gauge.terminationGauged,Prod.map_fst,Option.isSome_map] at returned
    exact congrArg (fun out => out.2.wrapped) ((Watch.terminationLasts _ _ _).answered returned le)
  | processExit timeout poll =>
    rw [step,← Gauge.processExitGauged,Prod.map_fst,Option.isSome_map] at returned
    exact congrArg (fun out => out.2.wrapped) ((Watch.processExitLasts _ _ _).answered returned le)
  | _ => rfl

theorem steadyLasts {rounds more : Nat} {s : Session} {ops : List Op}
    (steady : Steady rounds s ops) (returned : ∀ row ∈ s.run rounds ops, row.1.isSome = true)
    (le : rounds ≤ more) : Steady more s ops := by
  induction ops generalizing s with
  | nil => trivial
  | cons op ops ih =>
    rw [run] at returned
    rcases first : s.step rounds op with ⟨_ | answer,t⟩ <;> rw [first] at returned
    · cases returned _ List.mem_cons_self
    · have answered : (s.step rounds op).1.isSome = true := by rw [first]; rfl
      have onward := steady.2 answered
      refine ⟨(wrapsLasts answered le).trans steady.1,fun _ => ?_⟩
      rw [(stepLasts s op).answered answered le]
      rw [first] at onward ⊢
      exact ih onward fun row mem => returned row (List.mem_cons_of_mem _ mem)

end Session
end PaneWatch
