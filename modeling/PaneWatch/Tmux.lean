import PaneWatch.Watch
/-! A pane of a tmux server, read by running `tmux capture-pane`. What the program writes is
taken as it is, blank space included. A program that ends with a status other than zero is a
failure, which tells the blank-trimmed text of its error output. -/
namespace PaneWatch
open Text

inductive LaunchFault where
  | notFound
  | notPermitted
  | zeroByte
  deriving DecidableEq, Repr

namespace LaunchFault

def text : LaunchFault → String
  | notFound => "No such file or directory (os error 2)"
  | notPermitted => "Permission denied (os error 13)"
  | zeroByte => "nul byte found in provided data"

end LaunchFault

structure Finished where
  status : UInt8
  output : Bytes
  errors : Bytes
  deriving DecidableEq, Repr

abbrev Outcome := Except LaunchFault Finished

abbrev Program := List String → Finished

inductive Found where
  | program (run : Program)
  | noProgram
  | nothing

abbrev Host := String → Found

namespace Host

def hasZeroByte (s : String) : Bool := s.toList.contains '\x00'

/-- A zero byte in the name or in an argument is found before the host is asked. -/
def launch (host : Host) (name : String) (arguments : List String) : Outcome :=
  if (name::arguments).any hasZeroByte then .error .zeroByte
  else
    match host name with
    | .program run => .ok (run arguments)
    | .noProgram => .error .notPermitted
    | .nothing => .error .notFound

def withProgram (host : Host) (name : String) (run : Program) : Host :=
  fun asked => if asked = name then .program run else host asked

end Host

structure TmuxPane where
  target : String
  socket : Option String
  escapes : Bool
  program : String
  deriving DecidableEq, Repr

inductive TmuxFault where
  | notRun (program : String) (cause : LaunchFault)
  | refused (target : String) (status : UInt8) (errors : String)
  deriving DecidableEq, Repr

namespace TmuxFault

def text : TmuxFault → String
  | notRun program cause => "failed to run " ++ program ++ ": " ++ cause.text
  | refused target status errors =>
    "tmux capture-pane for '" ++ target ++ "' exited with exit status: " ++
      String.ofList (decimal status.toNat) ++ ": " ++ errors

end TmuxFault

namespace TmuxPane

def ofTarget (target : String) : TmuxPane := ⟨target,none,false,"tmux"⟩

def withSocket (socket : String) (p : TmuxPane) : TmuxPane := { p with socket := some socket }

def withEscapes (escapes : Bool) (p : TmuxPane) : TmuxPane := { p with escapes := escapes }

def withProgram (program : String) (p : TmuxPane) : TmuxPane := { p with program := program }

def socketArguments : Option String → List String
  | some socket => ["-L",socket]
  | none => []

def escapeArguments (escapes : Bool) : List String := if escapes then ["-e"] else []

def arguments (p : TmuxPane) : List String :=
  socketArguments p.socket ++ ["capture-pane","-p"] ++ escapeArguments p.escapes ++ ["-t",p.target]

def ofOutcome (p : TmuxPane) : Outcome → Except TmuxFault String
  | .error cause => .error (.notRun p.program cause)
  | .ok run =>
    if run.status = 0 then .ok (String.ofList (decode run.output))
    else .error (.refused p.target run.status (String.ofList (trim (decode run.errors))))

def capture (host : Host) (p : TmuxPane) : Except TmuxFault String :=
  p.ofOutcome (host.launch p.program p.arguments)

end TmuxPane

structure HostedPane where
  pane : TmuxPane
  host : Host

instance : Source HostedPane TmuxFault where
  capture p := (p.pane.capture p.host,p)

end PaneWatch
