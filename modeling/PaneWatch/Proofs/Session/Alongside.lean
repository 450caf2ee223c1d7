import Mathlib.Data.List.Forall2
import PaneWatch.Proofs.Watch.Lockstep

/-! Two sessions side by side. How their scenes are related is left open, panes apart; all else
is the same but for the time of day. Sessions whose scenes an operation treats alike are still
side by side after it, and so they are after a run, row by row. -/
namespace PaneWatch

structure Scene.SharesPane (R : Scene → Scene → Prop) : Prop where
  same {s t : Scene} : R s t → s.pane = t.pane
  changed {s t : Scene} (change : ScriptedPane → ScriptedPane) :
    R s t → R { s with pane := change s.pane } { t with pane := change t.pane }

namespace Session
open Scene (undated)
open Watch (answerDated)
open Watch.Lockstep (Beside)

def Answer.undated : Answer → Answer
  | .waited snapshot => .waited (snapshot.map (Snapshot.redated Scene.undated))
  | .recorded r => .recorded (r.redated Scene.undated)
  | answer => answer

structure Report where
  answer : Option Answer
  now : Span
  captures : Nat
  remaining : Nat
  lastIteration : Option UInt32

def report (row : Option Answer × Session) : Report where
  answer := row.1.map Answer.undated
  now := row.2.scene.clock.now
  captures := row.2.scene.pane.captures
  remaining := row.2.scene.pane.remaining
  lastIteration := row.2.lastIteration

theorem waitedUndated (answer : Option (Watch.WaitAnswer CaptureFailure)) :
    (answer.map (answerOf .waited)).map Answer.undated =
      (answer.map (Watch.answerDated undated)).map (answerOf .waited) := by
  rcases answer with _ | e | snapshot <;> rfl

theorem recordedUndated (answer : Option (Except CaptureFailure Recording)) :
    (answer.map (answerOf .recorded)).map Answer.undated =
      (answer.map (Except.map (Recording.redated undated))).map (answerOf .recorded) := by
  rcases answer with _ | e | r <;> rfl

theorem recordingUndated (r : Recording) (answer : Option (Except CaptureFailure Recording)) :
    (recordingAfter r answer).redated undated =
      recordingAfter (r.redated undated)
        (answer.map (Except.map (Recording.redated undated))) := by
  rcases answer with _ | e | recorded <;> rfl

theorem notedUndated (r : Recording) (text : String) :
    (r.redated undated).noteExitCode text =
      ((r.noteExitCode text).1,(r.noteExitCode text).2.redated undated) := by
  unfold Recording.noteExitCode
  cases Marker.exitCode? text <;> rfl

def Alike {α δ σ τ : Type} (R : σ → τ → Prop) (view : Option α → δ) (x : Option α × σ)
    (y : Option α × τ) : Prop :=
  view x.1 = view y.1 ∧ R x.2 y.2

def Op.TreatsAlike (R : Scene → Scene → Prop) (rounds : Nat) (a b : Session) : Op → Prop
  | .wait n timeout =>
    Alike R (Option.map (answerDated undated))
      (Watch.wait rounds a.settings n timeout a.scene)
      (Watch.wait rounds a.settings n timeout b.scene)
  | .sequence lastTarget timeout budget =>
    Alike (Beside R) (Option.map (Except.map (Recording.redated undated)))
      (Watch.sequence rounds a.settings lastTarget timeout budget ⟨a.scene,a.lastIteration⟩)
      (Watch.sequence rounds a.settings lastTarget timeout budget ⟨b.scene,b.lastIteration⟩)
  | .termination timeout poll =>
    Alike R id (Watch.termination rounds timeout poll a.scene)
      (Watch.termination rounds timeout poll b.scene)
  | .processExit timeout poll =>
    Alike R id (Watch.processExit rounds timeout poll a.scene)
      (Watch.processExit rounds timeout poll b.scene)
  | .advance d => R (a.scene.advance d) (b.scene.advance d)
  | _ => True

structure Alongside (R : Scene → Scene → Prop) (a b : Session) : Prop where
  scenes : R a.scene b.scene
  settings : a.settings = b.settings
  targets : a.lastIteration = b.lastIteration
  recordings : a.recording.redated undated = b.recording.redated undated

namespace Alongside

variable {R : Scene → Scene → Prop} {rounds : Nat} {a b : Session}

theorem withScene (pair : Alongside R a b) {s t : Scene} (scenes : R s t) :
    Alongside R (a.withScene s) (b.withScene t) :=
  ⟨scenes,pair.settings,pair.targets,pair.recordings⟩

theorem step (panes : Scene.SharesPane R) (pair : Alongside R a b) {op : Op}
    (alike : op.TreatsAlike R rounds a b) :
    (a.step rounds op).1.map Answer.undated = (b.step rounds op).1.map Answer.undated ∧
      Alongside R (a.step rounds op).2 (b.step rounds op).2 := by
  cases op with
  | wait n timeout =>
    obtain ⟨answers,scenes⟩ := alike
    simp only [Session.step,← pair.settings]
    refine ⟨?_,pair.withScene scenes⟩
    rw [Prod.map_fst,Prod.map_fst,waitedUndated,answers,waitedUndated]
  | sequence lastTarget timeout budget =>
    obtain ⟨answers,scenes,targets⟩ := alike
    simp only [Session.step,← pair.settings]
    refine ⟨?_,scenes,rfl,targets,?_⟩
    · rw [recordedUndated,answers,recordedUndated]
    · rw [recordingUndated,answers,pair.recordings,recordingUndated]
  | termination timeout poll =>
    obtain ⟨answers,scenes⟩ := alike
    rw [id_eq,id_eq] at answers
    exact ⟨by simp only [Session.step,Prod.map_fst,answers],pair.withScene scenes⟩
  | processExit timeout poll =>
    obtain ⟨answers,scenes⟩ := alike
    rw [id_eq,id_eq] at answers
    exact ⟨by simp only [Session.step,Prod.map_fst,answers],pair.withScene scenes⟩
  | push text =>
    exact ⟨rfl,pair.withScene (panes.changed (ScriptedPane.push text) pair.scenes)⟩
  | capture =>
    have frames : (Stage.capture a.scene).1 = (Stage.capture b.scene).1 :=
      congrArg (fun p => (ScriptedPane.capture p).1) (panes.same pair.scenes)
    exact ⟨by simp only [Session.step,Prod.map_fst,frames],
      pair.withScene (panes.changed (fun p => p.capture.2) pair.scenes)⟩
  | advance d => exact ⟨rfl,pair.withScene alike⟩
  | noteExitCode text =>
    have same := congrArg (Recording.noteExitCode · text) pair.recordings
    simp only [notedUndated,Prod.mk.injEq] at same
    have codes : (a.recording.noteExitCode text).2.exitCode =
        (b.recording.noteExitCode text).2.exitCode := by
      simpa only [Recording.redated] using congrArg Recording.exitCode same.2
    exact ⟨by simp only [Session.step,same.1,codes],pair.scenes,pair.settings,pair.targets,same.2⟩
  | settings => exact ⟨by simp only [Session.step,pair.settings],pair⟩
  | rebuild settings => exact ⟨rfl,pair.scenes,rfl,rfl,pair.recordings⟩

end Alongside

def RowsAlike (R : Scene → Scene → Prop) (x y : Option Answer × Session) : Prop :=
  x.1.map Answer.undated = y.1.map Answer.undated ∧ Alongside R x.2 y.2

theorem RowsAlike.flipped {R S : Scene → Scene → Prop} (flip : ∀ {s t}, R s t → S t s)
    {x y : Option Answer × Session} (alike : RowsAlike R x y) : RowsAlike S y x :=
  ⟨alike.1.symm,flip alike.2.scenes,alike.2.settings.symm,alike.2.targets.symm,
    alike.2.recordings.symm⟩

theorem runAlongside {R : Scene → Scene → Prop} (panes : Scene.SharesPane R) (rounds : Nat)
    (Goes : Session → Session → List Op → Prop)
    (alike : ∀ {a b op ops}, Alongside R a b → Goes a b (op::ops) → op.TreatsAlike R rounds a b)
    (onward : ∀ {a b op ops}, Goes a b (op::ops) → (b.step rounds op).1.isSome = true →
      Goes (a.step rounds op).2 (b.step rounds op).2 ops)
    {ops : List Op} {a b : Session} (pair : Alongside R a b) (goes : Goes a b ops) :
    List.Forall₂ (RowsAlike R) (a.run rounds ops) (b.run rounds ops) := by
  induction ops generalizing a b with
  | nil => exact .nil
  | cons op ops ih =>
    obtain ⟨answers,after⟩ := pair.step panes (alike pair goes)
    have next := onward goes
    unfold run
    rcases hb : b.step rounds op with ⟨_ | answer,b'⟩ <;>
      rcases ha : a.step rounds op with ⟨_ | answer',a'⟩ <;>
      rw [ha,hb] at answers after next
    · exact .cons ⟨answers,after⟩ .nil
    · cases answers
    · cases answers
    · exact .cons ⟨answers,after⟩ (ih after (next rfl))

/- Operation `i` returns if some number of rounds is enough for it and for all before it. -/
def Returns (s : Session) (ops : List Op) (i : Nat) : Prop :=
  ∃ rounds row, (s.run rounds ops)[i]? = some row ∧ row.1.isSome = true

theorem returnsAsWell {a b : Session} {rounds : Nat} {ops : List Op} {i row}
    (same : (a.run rounds ops).map (fun row => row.1.isSome) =
      (b.run rounds ops).map (fun row => row.1.isSome))
    (place : (a.run rounds ops)[i]? = some row) (answered : row.1.isSome = true) :
    b.Returns ops i := by
  have answers := congrArg (fun rows : List Bool => rows[i]?) same
  simp only [List.getElem?_map,place,Option.map_some,answered] at answers
  obtain ⟨other,there,returned⟩ := Option.map_eq_some_iff.mp answers.symm
  exact ⟨rounds,other,there,returned⟩

theorem rowsReturn {R : Scene → Scene → Prop} {xs ys : List (Option Answer × Session)}
    (rows : List.Forall₂ (RowsAlike R) xs ys) :
    xs.map (fun row => row.1.isSome) = ys.map (fun row => row.1.isSome) := by
  induction rows with
  | nil => rfl
  | cons row rest ih =>
    rw [List.map_cons,List.map_cons,Watch.answeredBoth row.1,ih]

end Session
end PaneWatch
