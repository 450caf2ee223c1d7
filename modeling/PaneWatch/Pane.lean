/-! A pane in memory that replays a script. Each capture takes the next frame when it is asked
for; when none is left the last text is served again. A frame that fails is taken like any other
and leaves the last text as it was. In use, the frame taken is held for whoever asked until it is
awaited or given up. -/
namespace PaneWatch

structure CaptureFailure where
  message : String
  deriving DecidableEq, Repr

namespace CaptureFailure

def text (e : CaptureFailure) : String := "scripted capture failed: " ++ e.message

end CaptureFailure

abbrev Frame := Except CaptureFailure String

structure ScriptedPane where
  frames : List Frame
  last : String
  captures : Nat
  deriving Repr

namespace ScriptedPane

def ofFrames (frames : List Frame) : ScriptedPane := ⟨frames,"",0⟩

instance : Inhabited ScriptedPane := ⟨ofFrames []⟩

def append (frames : List Frame) (p : ScriptedPane) : ScriptedPane :=
  { p with frames := p.frames ++ frames }

def push (text : String) (p : ScriptedPane) : ScriptedPane := p.append [.ok text]

def pushFailure (message : String) (p : ScriptedPane) : ScriptedPane :=
  p.append [.error ⟨message⟩]

def pushRepeated (text : String) (count : Nat) (p : ScriptedPane) : ScriptedPane :=
  p.append (List.replicate count (.ok text))

def remaining (p : ScriptedPane) : Nat := p.frames.length

def capture (p : ScriptedPane) : Frame × ScriptedPane :=
  match p.frames with
  | [] => (.ok p.last,{ p with captures := p.captures + 1 })
  | .ok text::rest => (.ok text,⟨rest,text,p.captures + 1⟩)
  | .error e::rest => (.error e,⟨rest,p.last,p.captures + 1⟩)

end ScriptedPane

structure Replay where
  pane : ScriptedPane
  /-- The captures asked for, in order. One that was awaited or given up holds nothing. -/
  asked : List (Option Frame)
  deriving Repr

namespace Replay

inductive Op where
  | push (text : String)
  | pushRepeated (text : String) (count : Nat)
  | pushFailure (message : String)
  | capture
  | await (call : Nat)
  | giveUp (call : Nat)
  deriving DecidableEq, Repr

def start (texts : List String) : Replay := ⟨ScriptedPane.ofFrames (texts.map .ok),[]⟩

def step (r : Replay) : Op → Option Frame × Replay
  | .push text => (none,{ r with pane := r.pane.push text })
  | .pushRepeated text count => (none,{ r with pane := r.pane.pushRepeated text count })
  | .pushFailure message => (none,{ r with pane := r.pane.pushFailure message })
  | .capture =>
    let (frame,pane) := r.pane.capture
    (none,⟨pane,r.asked ++ [some frame]⟩)
  | .await i => ((r.asked[i]?).join,{ r with asked := r.asked.set i none })
  | .giveUp i => (none,{ r with asked := r.asked.set i none })

def after (r : Replay) (ops : List Op) : Replay := ops.foldl (fun r op => (r.step op).2) r

end Replay

end PaneWatch
