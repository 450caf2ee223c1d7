import PaneWatch.Files.Tree
import PaneWatch.Json.Form
import PaneWatch.Marker
import PaneWatch.Time.Timestamp
/-! What was captured of a pane: single snapshots, and recordings of a run of iterations. Both are
written as JSON objects and read back as objects or arrays; what may be absent is written as null,
and may be left out of an object. A recording is also dumped to a directory: one file for the text
of each snapshot, numbered by position, and then the summary `sequence.json`, which names those
files and repeats all but the texts. -/
namespace PaneWatch
open Json

structure Sighting where
  iteration : UInt32
  content : String
  elapsed : Option String
  mode : Option Mode
  deriving DecidableEq, Repr

namespace Sighting

/-- The iteration is the one shown, or `expected` when the text shows none. -/
def ofContent (content : String) (expected : UInt32) : Sighting where
  iteration := (Marker.iteration? content).getD expected
  content := content
  elapsed := Marker.elapsed? content
  mode := Marker.mode? content

end Sighting

structure Snapshot extends Sighting where
  capturedAt : Timestamp
  deriving DecidableEq

namespace Snapshot

def ofContent (content : String) (expected : UInt32) (capturedAt : Timestamp) : Snapshot :=
  ⟨Sighting.ofContent content expected,capturedAt⟩

end Snapshot

structure Recording where
  snapshots : List Snapshot
  exitCode : Option Int32
  timedOut : Bool
  deriving DecidableEq

namespace Recording

def empty : Recording := ⟨[],none,false⟩

instance : Inhabited Recording := ⟨empty⟩

def captured (r : Recording) : Nat := r.snapshots.length

def find? (r : Recording) (n : UInt32) : Option Snapshot :=
  r.snapshots.find? fun s => s.iteration == n

def last? (r : Recording) : Option Snapshot := r.snapshots.getLast?

def noteExitCode (r : Recording) (text : String) : Option Int32 × Recording :=
  match Marker.exitCode? text with
  | some code => (some code,{ r with exitCode := some code })
  | none => (none,r)

end Recording

def Json.Form.uint32 : Form UInt32 :=
  Form.integer.refine fun i =>
    if 0 ≤ i ∧ i.toNat < UInt32.size then some (UInt32.ofNat i.toNat) else none

def Json.Form.int32 : Form Int32 :=
  Form.integer.refine fun i =>
    if -2147483648 ≤ i ∧ i ≤ 2147483647 then some (Int32.ofInt i) else none

namespace Mode

def toValue (m : Mode) : Value := .string m.label

def form : Form Mode := Form.label ofLabel?

end Mode

namespace Timestamp

def toValue (t : Timestamp) : Value := .string (String.ofList t.text)

def form : Form Timestamp := Form.string.refine fun s => ofText? s.toList

end Timestamp

namespace Snapshot

def toValue (s : Snapshot) : Value :=
  .object
    [("iteration",.integer s.iteration.toNat),("content",.string s.content),
      ("elapsed_time",.ofOption .string s.elapsed),("mode",.ofOption Mode.toValue s.mode),
      ("captured_at",s.capturedAt.toValue)]

structure Draft where
  iteration : Option UInt32
  content : Option String
  elapsed : Option (Option String)
  mode : Option (Option Mode)
  capturedAt : Option Timestamp

namespace Draft

def blank : Draft := ⟨none,none,none,none,none⟩

def slots : List (Slot Draft) :=
  [Slot.of "iteration" iteration (fun a d => { d with iteration := some a }) Form.uint32,
    Slot.of "content" content (fun a d => { d with content := some a }) Form.string,
    Slot.of "elapsed_time" elapsed (fun a d => { d with elapsed := some a }) Form.string.nullable,
    Slot.of "mode" mode (fun a d => { d with mode := some a }) Mode.form.nullable,
    Slot.of "captured_at" capturedAt (fun a d => { d with capturedAt := some a }) Timestamp.form]

def finish (d : Draft) : Option Snapshot := do
  let iteration ← d.iteration
  let content ← d.content
  let capturedAt ← d.capturedAt
  some ⟨⟨iteration,content,d.elapsed.join,d.mode.join⟩,capturedAt⟩

end Draft

def form : Form Snapshot := Form.record Draft.slots Draft.blank Draft.finish

end Snapshot

namespace Recording

def exitCodeValue (r : Recording) : Value := .ofOption (fun code => .integer code.toInt) r.exitCode

def toValue (r : Recording) : Value :=
  .object
    [("states",.array (r.snapshots.map Snapshot.toValue)),("final_exit_code",r.exitCodeValue),
      ("timed_out",.bool r.timedOut)]

structure Draft where
  snapshots : Option (List Snapshot)
  exitCode : Option (Option Int32)
  timedOut : Option Bool

namespace Draft

def blank : Draft := ⟨none,none,none⟩

def slots : List (Slot Draft) :=
  [Slot.of "states" snapshots (fun a d => { d with snapshots := some a }) Snapshot.form.list,
    Slot.of "final_exit_code" exitCode (fun a d => { d with exitCode := some a })
      Form.int32.nullable,
    Slot.of "timed_out" timedOut (fun a d => { d with timedOut := some a }) Form.bool]

def finish (d : Draft) : Option Recording := do
  let snapshots ← d.snapshots
  let timedOut ← d.timedOut
  some ⟨snapshots,d.exitCode.join,timedOut⟩

end Draft

def form : Form Recording := Form.record Draft.slots Draft.blank Draft.finish

def json (r : Recording) : List Char := r.toValue.compact

def readsBack (r : Recording) : Bool :=
  match form.ofText r.json with
  | .ok s => s = r
  | .error _ => false

end Recording

namespace Snapshot

def fileName (s : Snapshot) (position : Nat) : String :=
  "frame_" ++ String.ofList (Text.padded 3 (position + 1)) ++ "_iter_" ++
    String.ofList (Text.padded 6 s.iteration.toNat) ++ ".txt"

def summaryValue (s : Snapshot) (position : Nat) : Value :=
  .object
    [("iteration",.integer s.iteration.toNat),("elapsed_time",.ofOption .string s.elapsed),
      ("mode",.ofOption Mode.toValue s.mode),("captured_at",s.capturedAt.toValue),
      ("file",.string (s.fileName position))]

end Snapshot

namespace Recording

def summaryName : String := "sequence.json"

def summaryValue (r : Recording) : Value :=
  .object
    [("iterations_captured",.integer r.captured),("final_exit_code",r.exitCodeValue),
      ("timed_out",.bool r.timedOut),
      ("frames",.array (r.snapshots.zipIdx.map fun (s,i) => s.summaryValue i))]

def files (r : Recording) : List (String × String) :=
  r.snapshots.zipIdx.map (fun (s,i) => (s.fileName i,s.content)) ++
    [(summaryName,String.ofList r.summaryValue.indented)]

def dump (r : Recording) (directory : String) (t : Tree) : Except FileFault Unit × Tree :=
  match t.makeDirectories directory with
  | (.error e,t) => (.error e,t)
  | (.ok path,t) => t.writeFiles directory path r.files

def dumpMessage (e : FileFault) : String := "I/O error: " ++ e.text

end Recording

end PaneWatch
