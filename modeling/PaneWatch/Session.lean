import PaneWatch.Pane
import PaneWatch.Watch
/-! A session: one watcher over one scene, and what can be asked of it. A failed capture is an
answer like any other and does not end the session; an operation that never returns does. -/
namespace PaneWatch

instance : Source ScriptedPane CaptureFailure where
  capture := ScriptedPane.capture

structure Upcoming where
  time : Span
  text : String
  deriving DecidableEq, Repr

/-- A scripted pane watched on a clock of either kind. A text still to appear on it appears as soon
as the clock has reached its time. -/
structure Scene where
  clock : Clock
  pane : ScriptedPane
  /-- Texts still to appear, in order of time. -/
  timeline : List Upcoming
  calendar : Nat → Timestamp

namespace Scene

def deliver (s : Scene) : Scene :=
  let due := s.timeline.takeWhile fun u => u.time ≤ s.clock.now
  { s with
    pane := s.pane.append (due.map fun u => .ok u.text)
    timeline := s.timeline.drop due.length }

def start (clock : Clock) (pane : ScriptedPane) (timeline : List Upcoming)
    (calendar : Nat → Timestamp) : Scene :=
  deliver ⟨clock,pane,timeline.mergeSort fun a b => a.time ≤ b.time,calendar⟩

def advance (d : Span) (s : Scene) : Scene := deliver { s with clock := s.clock.advance d }

instance : Stage Scene CaptureFailure where
  now s := s.clock.now
  sleep d s := deliver { s with clock := s.clock.sleep d }
  capture s :=
    let (frame,pane) := s.pane.capture
    (frame,{ s with pane := pane })
  timeOfDay s := s.calendar s.pane.captures

end Scene

structure Session where
  scene : Scene
  settings : Settings
  lastIteration : Option UInt32
  recording : Recording

namespace Session

inductive Op where
  | wait (n : UInt32) (timeout : Span)
  | sequence (lastTarget : UInt32) (timeout budget : Span)
  | termination (timeout poll : Span)
  | processExit (timeout poll : Span)
  | push (text : String)
  | capture
  | advance (d : Span)
  | noteExitCode (text : String)
  | settings
  | rebuild (settings : Settings)
  deriving DecidableEq, Repr

inductive Answer where
  | nothing
  | failed (e : CaptureFailure)
  | waited (snapshot : Option Snapshot)
  | recorded (recording : Recording)
  | ended (text : String) (seen : Bool)
  | exited (seen : Bool) (text : String)
  | captured (text : String)
  | noted (found exitCode : Option Int32)
  | settings (settings : Settings)
  deriving DecidableEq

def start (scene : Scene) (settings : Settings) : Session :=
  ⟨scene,settings,none,Recording.empty⟩

def answerOf {α : Type} (ok : α → Answer) : Except CaptureFailure α → Answer
  | .error e => .failed e
  | .ok a => ok a

def withScene (s : Session) (scene : Scene) : Session := { s with scene := scene }

def recordingAfter (r : Recording) : Option (Except CaptureFailure Recording) → Recording
  | some (.ok recorded) => recorded
  | _ => r

/-- One operation. It has no answer if a wait in it was still going on after `rounds` rounds. -/
def step (rounds : Nat) (s : Session) : Op → Option Answer × Session
  | .wait n timeout =>
    (Watch.wait rounds s.settings n timeout s.scene).map
      (Option.map (answerOf .waited)) s.withScene
  | .sequence lastTarget timeout budget =>
    let (answer,p) :=
      Watch.sequence rounds s.settings lastTarget timeout budget ⟨s.scene,s.lastIteration⟩
    (answer.map (answerOf .recorded),
      ⟨p.stage,s.settings,p.lastIteration,recordingAfter s.recording answer⟩)
  | .termination timeout poll =>
    (Watch.termination rounds timeout poll s.scene).map
      (Option.map (answerOf fun (text,seen) => .ended text seen)) s.withScene
  | .processExit timeout poll =>
    (Watch.processExit rounds timeout poll s.scene).map
      (Option.map (answerOf fun (seen,text) => .exited seen text)) s.withScene
  | .push text =>
    (some .nothing,s.withScene { s.scene with pane := s.scene.pane.push text })
  | .capture =>
    (Stage.capture s.scene).map (fun frame => some (answerOf .captured frame)) s.withScene
  | .advance d => (some .nothing,s.withScene (s.scene.advance d))
  | .noteExitCode text =>
    let (found,r) := s.recording.noteExitCode text
    (some (.noted found r.exitCode),{ s with recording := r })
  | .settings => (some (.settings s.settings),s)
  | .rebuild settings => (some .nothing,{ s with settings := settings, lastIteration := none })

/-- Each operation's answer with the session after it. An operation that did not return has no
answer and is the last. -/
def run (rounds : Nat) (s : Session) : List Op → List (Option Answer × Session)
  | [] => []
  | op::ops =>
    match s.step rounds op with
    | (none,s) => [(none,s)]
    | (some answer,s) => (some answer,s)::run rounds s ops

end Session

end PaneWatch
