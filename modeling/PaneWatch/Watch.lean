import PaneWatch.Recording
import PaneWatch.Settings
/-! Watching a pane: waiting for an iteration, for a run of iterations, and for the watched program
to end. A wait works on a stage, which has a monotonic clock to measure and sleep on, a pane to
capture, and a time of day to date what was captured. A source of captures put beside a fake clock
is a stage. -/
namespace PaneWatch

class Stage (σ : Type) (ε : outParam Type) where
  now : σ → Span
  sleep : Span → σ → σ
  capture : σ → Except ε String × σ
  timeOfDay : σ → Timestamp

/-- Time passed since an earlier reading, zero if the clock went back. -/
def Stage.elapsedSince {σ ε : Type} [Stage σ ε] (start : Span) (s : σ) : Span :=
  Stage.now s - start

class Source (π : Type) (ε : outParam Type) where
  capture : π → Except ε String × π

/-- A source watched on a fake clock. The time of day depends on how many captures were made. -/
structure Bench (π : Type) where
  clock : FakeClock
  source : π
  captures : Nat
  calendar : Nat → Timestamp

namespace Bench

def start {π : Type} (clock : FakeClock) (source : π) (calendar : Nat → Timestamp) : Bench π :=
  ⟨clock,source,0,calendar⟩

instance {π ε : Type} [Source π ε] : Stage (Bench π) ε where
  now b := b.clock.now
  sleep d b := { b with clock := b.clock.sleep d }
  capture b :=
    let (outcome,source) := Source.capture b.source
    (outcome,{ b with source := source, captures := b.captures + 1 })
  timeOfDay b := b.calendar b.captures

end Bench

inductive Round (σ β : Type) where
  | again (s : σ)
  | done (answer : β) (s : σ)

namespace Round

variable {σ τ β : Type}

/-- A wait may go on for ever, so it is followed for a number of rounds only: what comes of that is
its answer, `none` if none came within them, and the state in which it was left. -/
def within (round : σ → Round σ β) : Nat → σ → Option β × σ
  | 0,s => (none,s)
  | n+1,s =>
    match round s with
    | again s => within round n s
    | done answer s => (some answer,s)

end Round

namespace Watch

variable {σ ε : Type} [Stage σ ε]

def reached (n : UInt32) (text : String) : Bool :=
  match Marker.iteration? text with
  | some shown => n ≤ shown
  | none => false

abbrev WaitAnswer (ε : Type) := Except ε (Option Snapshot)

/-- The second capture, after the settle delay, is the answer, whatever it shows. -/
def settle (settings : Settings) (n : UInt32) (s : σ) : WaitAnswer ε × σ :=
  match Stage.capture (Stage.sleep settings.captureDelay s) with
  | (.error e,s) => (.error e,s)
  | (.ok text,s) => (.ok (some (Snapshot.ofContent text n (Stage.timeOfDay s))),s)

/-- The deadline is looked at before each poll and never while settling. -/
def waitRound (settings : Settings) (n : UInt32) (timeout start : Span) (s : σ) :
    Round σ (WaitAnswer ε) :=
  if Stage.elapsedSince start s < timeout then
    match Stage.capture s with
    | (.error e,s) => .done (.error e) s
    | (.ok text,s) =>
      if reached n text then
        let (answer,s) := settle settings n s
        .done answer s
      else .again (Stage.sleep settings.pollInterval s)
  else .done (.ok none) s

def wait (rounds : Nat) (settings : Settings) (n : UInt32) (timeout : Span) (s : σ) :
    Option (WaitAnswer ε) × σ :=
  Round.within (waitRound settings n timeout (Stage.now s)) rounds s

/-- The last target captured is remembered outside the recording, so a failed capture keeps it. -/
structure Progress (σ : Type) where
  stage : σ
  lastIteration : Option UInt32

def prepend (snapshot : Snapshot) (r : Recording) : Recording :=
  { r with snapshots := snapshot::r.snapshots }

/-- Each target gets its own timeout or what is left of the budget, whichever is shorter. The run
ends early when the budget is spent, which is noted, or when a target is not seen. -/
def targetsFrom (rounds : Nat) (settings : Settings) (timeout budget start : Span) :
    (left : Nat) → (target : Nat) → Progress σ → Option (Except ε Recording) × Progress σ
  | 0,_,p => (some (.ok Recording.empty),p)
  | left+1,target,p =>
    let elapsed := Stage.elapsedSince start p.stage
    if budget ≤ elapsed then (some (.ok ⟨[],none,true⟩),p)
    else
      let n := UInt32.ofNat target
      match wait rounds settings n (timeout.shorter (budget - elapsed)) p.stage with
      | (none,s) => (none,{ p with stage := s })
      | (some (.error e),s) => (some (.error e),{ p with stage := s })
      | (some (.ok none),s) => (some (.ok Recording.empty),{ p with stage := s })
      | (some (.ok (some snapshot)),s) =>
        (targetsFrom rounds settings timeout budget start left (target + 1) ⟨s,some n⟩).map
          (Option.map (Except.map (prepend snapshot))) id

def sequence (rounds : Nat) (settings : Settings) (lastTarget : UInt32) (timeout budget : Span)
    (p : Progress σ) : Option (Except ε Recording) × Progress σ :=
  targetsFrom rounds settings timeout budget (Stage.now p.stage) lastTarget.toNat 1 p

/-- A stage with the last distinct text and how often in a row it has been seen again. -/
structure Stillness (σ : Type) where
  stage : σ
  text : String
  repeats : Nat

abbrev TerminationAnswer (ε : Type) := Except ε (String × Bool)

/-- The program has ended when the pane shows a shell prompt, or has stood still: when enough
captures in a row each equal the one before. Before the first capture the pane counts as blank. -/
def terminationRound (timeout poll start : Span) (w : Stillness σ) :
    Round (Stillness σ) (TerminationAnswer ε) :=
  if Stage.elapsedSince start w.stage < timeout then
    match Stage.capture w.stage with
    | (.error e,s) => .done (.error e) { w with stage := s }
    | (.ok text,s) =>
      if Marker.isPrompt text then .done (.ok (text,true)) { w with stage := s }
      else if text = w.text then
        if Settings.requiredStableCaptures ≤ w.repeats + 1 then
          .done (.ok (text,true)) { w with stage := s }
        else .again ⟨Stage.sleep poll s,w.text,w.repeats + 1⟩
      else .again ⟨Stage.sleep poll s,text,0⟩
  else .done (.ok (w.text,false)) w

def termination (rounds : Nat) (timeout poll : Span) (s : σ) : Option (TerminationAnswer ε) × σ :=
  (Round.within (terminationRound timeout poll (Stage.now s)) rounds ⟨s,"",0⟩).map
    id Stillness.stage

def processExit (rounds : Nat) (timeout poll : Span) (s : σ) :
    Option (Except ε (Bool × String)) × σ :=
  (termination rounds timeout poll s).map (Option.map (Except.map Prod.swap)) id

end Watch
end PaneWatch
