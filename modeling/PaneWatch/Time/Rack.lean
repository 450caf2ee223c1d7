import PaneWatch.Time.Clock
/-! A growing list of clocks. Fake clocks that come from one another share one counter, which
is their family; system clocks all read one virtual time, each from its own origin. Freezing
and cloning make a new clock and leave the one they start from as it was. -/
namespace PaneWatch

inductive Face where
  | fake (family : Nat) (autoAdvance : Bool)
  | system (origin : Span)
  deriving DecidableEq, Repr

structure Mounted where
  face : Face
  handle : Bool
  deriving DecidableEq, Repr

structure Rack where
  time : Span
  counters : List UInt64
  clocks : List Mounted
  deriving DecidableEq, Repr

namespace Rack

def empty : Rack := ⟨Span.zero,[],[]⟩

inductive Kind where
  | fake (start : UInt64)
  | fakeHandle
  | system
  | systemHandle
  deriving DecidableEq, Repr

inductive Op where
  | look
  | make (kind : Kind)
  | clone (clock : Nat)
  | handle (clock : Nat)
  | freeze (clock : Nat)
  | asFake (clock : Nat)
  | isFake (clock : Nat)
  | autoAdvance (clock : Nat)
  | sleep (clock : Nat) (d : Span)
  | advance (clock : Nat) (d : Span)
  | advanceMillis (clock : Nat) (ms : UInt64)
  | elapsedSince (clock : Nat) (start : Span)
  | tick (d : Span)
  deriving DecidableEq, Repr

inductive Answer where
  | nothing
  | flag (b : Bool)
  | millis (count : UInt64)
  | span (d : Span)
  deriving DecidableEq, Repr

def counter (r : Rack) (family : Nat) : UInt64 := (r.counters[family]?).getD 0

def read (r : Rack) (m : Mounted) : Span :=
  match m.face with
  | .fake family _ => Millis.now (r.counter family)
  | .system origin => r.time - origin

def readings (r : Rack) : List Span := r.clocks.map r.read

/-- The clock at a place; places are counted round the rack. -/
def mounted? (r : Rack) (clock : Nat) : Option Mounted := r.clocks[clock % r.clocks.length]?

def fakeFace? (r : Rack) (clock : Nat) : Option (Nat × Bool) :=
  match (r.mounted? clock).map Mounted.face with
  | some (.fake family auto) => some (family,auto)
  | _ => none

def mount (r : Rack) (m : Mounted) : Rack := { r with clocks := r.clocks ++ [m] }

def newFamily (r : Rack) (start : UInt64) (handle : Bool) : Rack :=
  { r with
    counters := r.counters ++ [start]
    clocks := r.clocks ++ [⟨.fake r.counters.length true,handle⟩] }

def make (r : Rack) : Kind → Rack
  | .fake start => r.newFamily start false
  | .fakeHandle => r.newFamily 0 true
  | .system => r.mount ⟨.system r.time,false⟩
  | .systemHandle => r.mount ⟨.system r.time,true⟩

def setCounter (r : Rack) (family : Nat) (count : UInt64) : Rack :=
  { r with counters := r.counters.set family count }

def moveFake (r : Rack) (clock : Nat) (f : UInt64 → UInt64) : Answer × Rack :=
  match r.fakeFace? clock with
  | some (family,_) => (.flag true,r.setCounter family (f (r.counter family)))
  | none => (.flag false,r)

def sleepOn (r : Rack) (m : Mounted) (d : Span) : Rack :=
  match m.face with
  | .fake family auto =>
    if auto then r.setCounter family (Millis.advance (r.counter family) d) else r
  | .system _ => { r with time := SystemClock.wakeTime r.time d }

/-- An operation on a clock of an empty rack changes nothing. -/
def step (r : Rack) : Op → Answer × Rack
  | .look => (.nothing,r)
  | .make kind => (.nothing,r.make kind)
  | .clone i => (.nothing,(r.mounted? i).elim r r.mount)
  | .handle i => (.nothing,(r.mounted? i).elim r fun m => r.mount { m with handle := true })
  | .freeze i =>
    match r.fakeFace? i with
    | some (family,_) => (.flag true,r.mount ⟨.fake family false,false⟩)
    | none => (.flag false,r)
  | .asFake i => ((r.fakeFace? i).elim .nothing fun (family,_) => .millis (r.counter family),r)
  | .isFake i =>
    match r.mounted? i with
    | some ⟨.fake _ _,true⟩ => (.flag true,r)
    | some ⟨.system _,true⟩ => (.flag false,r)
    | _ => (.nothing,r)
  | .autoAdvance i => ((r.fakeFace? i).elim .nothing fun (_,auto) => .flag auto,r)
  | .sleep i d => (.nothing,(r.mounted? i).elim r fun m => r.sleepOn m d)
  | .advance i d => r.moveFake i fun count => Millis.advance count d
  | .advanceMillis i ms => r.moveFake i fun count => count + ms
  | .elapsedSince i start => ((r.mounted? i).elim .nothing fun m => .span (r.read m - start),r)
  | .tick d => (.nothing,{ r with time := r.time + d })

def run (r : Rack) : List Op → List (Answer × Rack)
  | [] => []
  | op::ops =>
    let (answer,r) := r.step op
    (answer,r)::run r ops

end Rack
end PaneWatch
