import Mathlib.Algebra.Order.Floor.Div
import Mathlib.Order.Bounds.Defs
import PaneWatch.Proofs.Time.Millis
import PaneWatch.Watch

/-! What a source will serve, and a bench some milliseconds and some captures later. A wait on
a bench meets only such states of it, so it can be told from the outcomes alone. -/
namespace PaneWatch

namespace Source

variable {π ε : Type} [Source π ε]

def after (p : π) : Nat → π
  | 0 => p
  | k+1 => (capture (after p k)).2

/- The outcome of the `k`-th capture, counted from one; before the first the pane is blank. -/
def served (p : π) : Nat → Except ε String
  | 0 => .ok ""
  | k+1 => (capture (after p k)).1

end Source

namespace Bench

variable {π ε : Type} [Source π ε]

def later (b : Bench π) (ms captures : Nat) : Bench π :=
  ⟨{ b.clock with millis := b.clock.millis + UInt64.ofNat ms },Source.after b.source captures,
    b.captures + captures,b.calendar⟩

structure Moved (b : Bench π) (ms captures : Nat) (c : Bench π) : Prop where
  clock : c.clock.millis.toNat = b.clock.millis.toNat + ms
  autoAdvance : c.clock.autoAdvance = b.clock.autoAdvance
  source : c.source = Source.after b.source captures
  captures : c.captures = b.captures + captures
  calendar : c.calendar = b.calendar

theorem laterStart (b : Bench π) : b.later 0 0 = b := by
  have same : b.clock.millis + UInt64.ofNat 0 = b.clock.millis := UInt64.add_zero _
  simp only [later,same,Source.after,Nat.add_zero]

theorem laterCapture (b : Bench π) (ms k : Nat) :
    Stage.capture (b.later ms k) = (Source.served b.source (k+1),b.later ms (k+1)) := rfl

theorem laterSleep {b : Bench π} (moves : b.clock.autoAdvance = true) (ms k : Nat) (d : Span) :
    Stage.sleep d (b.later ms k) = b.later (ms + d.millis) k := by
  have count : b.clock.millis + UInt64.ofNat ms + UInt64.ofNat d.millis =
      b.clock.millis + UInt64.ofNat (ms + d.millis) := by
    rw [UInt64.ofNat_add,UInt64.add_assoc]
  simp only [Stage.sleep,later,FakeClock.sleep,moves,↓reduceIte,FakeClock.advance,Millis.advance,
    count]

theorem laterStopped {b : Bench π} (frozen : b.clock.autoAdvance = false) (ms k : Nat) (d : Span) :
    Stage.sleep d (b.later ms k) = b.later ms k := by
  simp only [Stage.sleep,later,FakeClock.sleep,frozen,Bool.false_eq_true,↓reduceIte]

theorem laterCount (b : Bench π) (ms k : Nat) :
    (b.later ms k).clock.millis.toNat = (b.clock.millis.toNat + ms) % UInt64.size := by
  rw [later,UInt64.toNat_add,UInt64.toNat_ofNat']
  exact Nat.add_mod_mod ..

theorem laterMillis {b : Bench π} {ms : Nat} (fits : b.clock.millis.toNat + ms < UInt64.size)
    (k : Nat) : (b.later ms k).clock.millis.toNat = b.clock.millis.toNat + ms := by
  rw [laterCount]
  exact Nat.mod_eq_of_lt fits

theorem laterMoved {b : Bench π} {ms : Nat} (fits : b.clock.millis.toNat + ms < UInt64.size)
    (k : Nat) : b.Moved ms k (b.later ms k) :=
  ⟨laterMillis fits k,rfl,rfl,rfl,rfl⟩

theorem laterPassed (b : Bench π) (ms k : Nat) :
    Stage.elapsedSince (Stage.now b) (b.later ms k) =
      Span.ofMillis ((b.clock.millis.toNat + ms) % UInt64.size - b.clock.millis.toNat) := by
  have now : Stage.now (b.later ms k) =
      Span.ofMillis ((b.clock.millis.toNat + ms) % UInt64.size) :=
    congrArg Span.ofMillis (laterCount b ms k)
  rw [Stage.elapsedSince,now]
  exact Span.ofMillisSub ..

theorem afterAfter (p : π) (j k : Nat) :
    Source.after (Source.after p j) k = Source.after p (j + k) := by
  induction k with
  | zero => rfl
  | succ k ih => exact congrArg (fun q => (Source.capture q).2) ih

theorem laterLater (b : Bench π) (ms more j k : Nat) :
    (b.later ms j).later more k = b.later (ms + more) (j + k) := by
  simp only [later,afterAfter,UInt64.ofNat_add,UInt64.add_assoc,Nat.add_assoc]

theorem laterElapsed {b : Bench π} {ms : Nat} (fits : b.clock.millis.toNat + ms < UInt64.size)
    (k : Nat) : Stage.elapsedSince (Stage.now b) (b.later ms k) = Span.ofMillis ms := by
  rw [laterPassed,Nat.mod_eq_of_lt fits,Nat.add_sub_cancel_left]

end Bench

namespace Watch

def polls (timeout poll : Span) : Nat := timeout.millisUp ⌈/⌉ poll.millis

theorem pollsBefore {timeout poll : Span} (ticks : 1 ≤ poll.millis) {k : Nat} :
    k < polls timeout poll ↔ k * poll.millis < timeout.millisUp := by
  rw [← not_le,← not_le,polls,ceilDiv_le_iff_le_mul ticks,Nat.mul_comm]

theorem lastPoll (timeout : Span) {poll : Span} (ticks : 1 ≤ poll.millis) :
    polls timeout poll * poll.millis < timeout.millisUp + poll.millis := by
  rcases count : polls timeout poll with _ | k
  · omega
  · have before : k * poll.millis < timeout.millisUp :=
      (pollsBefore ticks).mp (count ▸ Nat.lt_succ_self k)
    rw [Nat.succ_mul]
    omega

theorem pollFits {timeout poll : Span} {count : UInt64} {k : Nat} (ticks : 1 ≤ poll.millis)
    (fits : count.toNat + timeout.millisUp + poll.millis ≤ UInt64.size)
    (before : k ≤ polls timeout poll) : count.toNat + k * poll.millis < UInt64.size := by
  have last := lastPoll timeout ticks
  have le := Nat.mul_le_mul_right poll.millis before
  omega

theorem pollInCount {π ε : Type} [Source π ε] {timeout poll : Span} {b : Bench π} {k : Nat}
    (ticks : 1 ≤ poll.millis) (fits : b.clock.millis.toNat + k * poll.millis < UInt64.size) :
    Stage.elapsedSince (Stage.now b) (b.later (k * poll.millis) k) < timeout ↔
      k < polls timeout poll := by
  rw [Bench.laterElapsed fits k,Span.ofMillisLt,pollsBefore ticks]

theorem pollEarly {π ε : Type} [Source π ε] {timeout poll : Span} {b : Bench π} {k : Nat}
    (ticks : 1 ≤ poll.millis)
    (fits : b.clock.millis.toNat + timeout.millisUp + poll.millis ≤ UInt64.size)
    (before : k ≤ polls timeout poll) :
    Stage.elapsedSince (Stage.now b) (b.later (k * poll.millis) k) < timeout ↔
      k < polls timeout poll :=
  pollInCount ticks (pollFits ticks fits before)

theorem pollsOver {π ε : Type} [Source π ε] {timeout poll : Span} {b : Bench π}
    (ticks : 1 ≤ poll.millis)
    (fits : b.clock.millis.toNat + timeout.millisUp + poll.millis ≤ UInt64.size) :
    ¬ Stage.elapsedSince (Stage.now b)
      (b.later (polls timeout poll * poll.millis) (polls timeout poll)) < timeout := by
  rw [pollEarly ticks fits (Nat.le_refl _)]
  exact Nat.lt_irrefl _

def FirstEnd (Ends : Nat → Prop) (timeout poll : Span) (i : Nat) : Prop :=
  IsLeast {i | 1 ≤ i ∧ i ≤ polls timeout poll ∧ Ends i} i

theorem firstEnd {Ends : Nat → Prop} {timeout poll : Span} {i : Nat}
    (first : FirstEnd Ends timeout poll i) :
    ∃ k, i = k+1 ∧ k < polls timeout poll ∧ Ends (k+1) ∧ ∀ j < k, ¬ Ends (j+1) := by
  obtain ⟨⟨one,le,ends⟩,least⟩ := first
  obtain ⟨k,rfl⟩ := Nat.exists_eq_add_of_le' one
  refine ⟨k,rfl,by omega,ends,fun j before stops => ?_⟩
  have le := least ⟨by omega,by omega,stops⟩
  omega

theorem noFirstEnd {Ends : Nat → Prop} {timeout poll : Span}
    (none : ¬ ∃ i, FirstEnd Ends timeout poll i) {j : Nat} (before : j < polls timeout poll) :
    ¬ Ends (j+1) := by
  induction j using Nat.strong_induction_on with
  | h j earlier =>
    intro ends
    refine none ⟨j+1,⟨by omega,by omega,ends⟩,fun i ⟨one,_,stops⟩ => ?_⟩
    obtain ⟨i,rfl⟩ := Nat.exists_eq_add_of_le' one
    by_contra further
    exact earlier i (by omega) (by omega) stops

end Watch
end PaneWatch
