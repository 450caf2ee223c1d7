import PaneWatch.Proofs.Watch.ExactWait

/-! When a wait for an iteration that never comes can time out at all. The deadline has to be a
time that the count can show, and the sleeps have to move the count there: where either is not
so, the wait polls for ever, and its clock never seems to have reached the timeout. -/
namespace PaneWatch

def Settings.counted (settings : Settings) : Settings :=
  { settings with pollInterval := Span.ofMillis settings.pollInterval.counted }

namespace Bench

variable {π ε : Type} [Source π ε]

theorem sleptCounted (b : Bench π) (d : Span) :
    Stage.sleep d b = Stage.sleep (Span.ofMillis d.counted) b := by
  have same : Millis.advance b.clock.millis d =
      Millis.advance b.clock.millis (Span.ofMillis d.counted) := by
    have whole : (Span.ofMillis d.counted).millis = d.counted :=
      Nat.mul_div_cancel _ (by decide)
    rw [Millis.advance,Millis.advance,whole,Span.counted]
    exact congrArg (_ + ·) UInt64.ofNat_mod_size.symm
  simp only [Stage.sleep,FakeClock.sleep,FakeClock.advance,same]

/- The clock never seems to have reached the timeout if it stands still, or if the time of the
deadline is one that the count cannot show. -/
theorem neverLate {timeout : Span} (positive : 0 < timeout.millisUp) {b : Bench π} {ms : Nat}
    (short : ms % UInt64.size = 0 ∨ UInt64.size ≤ b.clock.millis.toNat + timeout.millisUp)
    (k : Nat) : Stage.elapsedSince (Stage.now b) (b.later ms k) < timeout := by
  have small : b.clock.millis.toNat < UInt64.size := b.clock.millis.toNat_lt
  rw [laterPassed,Span.ofMillisLt]
  rcases short with still | far
  · rw [Nat.add_mod,still,Nat.add_zero,Nat.mod_mod,Nat.mod_eq_of_lt small,Nat.sub_self]
    exact positive
  · have shown : (b.clock.millis.toNat + ms) % UInt64.size < UInt64.size :=
      Nat.mod_lt _ (by decide)
    omega

end Bench

namespace Watch

theorem usedUpAfter {p : ScriptedPane} (used : p.frames = []) (k : Nat) :
    Source.after p k = { p with captures := p.captures + k } := by
  induction k with
  | zero => rfl
  | succ k ih =>
    rw [Source.after,ih]
    simp only [Source.capture,ScriptedPane.capture,used,Nat.add_assoc]

theorem usedUpServes {p : ScriptedPane} (used : p.frames = []) (k : Nat) :
    Source.served p (k+1) = .ok p.last := by
  rw [Source.served,usedUpAfter used]
  simp only [Source.capture,ScriptedPane.capture,used]

variable {π ε : Type} [Source π ε] {settings : Settings} {n : UInt32} {timeout : Span}
  {b : Bench π}

def NeverShows (n : UInt32) (p : π) : Prop :=
  ∀ k, ∃ text, Source.served p (k+1) = .ok text ∧
    ∀ shown, Marker.iteration? text = some shown → shown < n

theorem neverEnds {p : π} (never : NeverShows n p) (k : Nat) : ¬ EndsWait n p (k+1) := by
  obtain ⟨text,served,below⟩ := never k
  intro ends
  obtain ⟨shown,marker,le⟩ := reachedShown.mp (shownAtEnd ends served)
  exact UInt32.not_le.mpr (below shown marker) le

theorem waitCounted (rounds : Nat) (settings : Settings) (n : UInt32) (timeout : Span)
    (b : Bench π) : wait rounds settings n timeout b = wait rounds settings.counted n timeout b := by
  have same (start : Span) : waitRound settings n timeout start (σ := Bench π) =
      waitRound settings.counted n timeout start := by
    funext c
    have slept (c : Bench π) : Stage.sleep settings.pollInterval c =
        Stage.sleep settings.counted.pollInterval c := Bench.sleptCounted c _
    simp only [waitRound,slept]
    rfl
  rw [wait,same,wait]

/- However long it is followed, a wait goes on: by then it has made as many polls as it was
followed for rounds, and the time passed is below the timeout. -/
def PollsForever (settings : Settings) (n : UInt32) (timeout : Span) (b : Bench π) : Prop :=
  ∀ rounds, ∃ c, wait rounds settings n timeout b = (none,c) ∧
    c.captures = b.captures + rounds ∧ Stage.elapsedSince (Stage.now b) c < timeout

theorem pollsForever (never : NeverShows n b.source) (ms : Nat → Nat) (start : ms 0 = 0)
    (slept : ∀ k, Stage.sleep settings.pollInterval (b.later (ms k) (k+1)) =
      b.later (ms (k+1)) (k+1))
    (early : ∀ k, Stage.elapsedSince (Stage.now b) (b.later (ms k) k) < timeout) :
    PollsForever settings n timeout b := by
  intro rounds
  have steps : ∀ k, waitRound settings n timeout (Stage.now b) (b.later (ms k) k) =
      .again (b.later (ms (k+1)) (k+1)) := by
    intro k
    rw [waitMissed (early k) (neverEnds never k),slept]
  have run := Round.withinForever (fun k => b.later (ms k) k) steps rounds
  rw [start,Bench.laterStart] at run
  exact ⟨_,run,rfl,early rounds⟩

theorem waitExpires (settings : Settings) (never : NeverShows n b.source)
    (positive : 0 < timeout.millisUp) :
    (b.clock.autoAdvance = true →
      (settings.pollInterval.counted = 0 ∨
          UInt64.size ≤ b.clock.millis.toNat + timeout.millisUp →
        PollsForever settings n timeout b) ∧
      (1 ≤ settings.pollInterval.counted →
        b.clock.millis.toNat + timeout.millisUp + settings.pollInterval.counted ≤ UInt64.size →
        ∃ c, Returns (fun rounds => wait rounds settings n timeout b) (.ok none) c)) ∧
    (b.clock.autoAdvance = false → PollsForever settings n timeout b) ∧
    (settings.pollInterval < Span.ofMillis 1 → settings.pollInterval.counted = 0) := by
  refine ⟨fun moves => ⟨fun short => ?_,fun ticks fits => ?_⟩,fun frozen => ?_,fun brief => ?_⟩
  · refine pollsForever never (· * settings.pollInterval.millis) (Nat.zero_mul _)
      (fun k => by rw [Bench.laterSleep moves,← Nat.succ_mul])
      fun k => Bench.neverLate positive (short.imp_left fun still => ?_) k
    rw [Nat.mul_mod,show settings.pollInterval.millis % UInt64.size = 0 from still,Nat.mul_zero,
      Nat.zero_mod]
  · have whole : settings.counted.pollInterval.millis = settings.pollInterval.counted :=
      Nat.mul_div_cancel _ (by decide)
    rw [← whole] at ticks fits
    have run := waitEnds moves ticks fits (Nat.lt_succ_self _) (Nat.le_refl _)
      (fun k _ => neverEnds never k) (waitExact (.late (pollsOver ticks fits)))
    exact ⟨_,_,(waitCounted ..).trans run⟩
  · exact pollsForever never (fun _ => 0) rfl (fun k => Bench.laterStopped frozen 0 (k+1) _)
      fun k => Bench.neverLate positive (.inl rfl) k
  · have none : settings.pollInterval.millis = 0 := Nat.div_eq_of_lt brief
    rw [Span.counted,none,Nat.zero_mod]

def lastMillis : Bench ScriptedPane :=
  .start (.startingAt (UInt64.ofNat (UInt64.size - 5))) ⟨[],"[iter 1]",0⟩ fun _ => .epoch

theorem waitExpiresBeforeWrap :
    PollsForever ⟨Span.ofMillis 2,Span.zero⟩ 2 (Span.ofMillis 5) lastMillis ∧
      ∃ c, Returns (fun rounds => wait rounds ⟨Span.ofMillis 2,Span.zero⟩ 2 (Span.ofMillis 3)
        lastMillis) (.ok none) c := by
  have marker : Marker.iteration? "[iter 1]" = some 1 := by rfl
  have never : NeverShows 2 lastMillis.source := by
    intro k
    refine ⟨"[iter 1]",usedUpServes rfl k,fun shown same => ?_⟩
    cases marker.symm.trans same
    decide
  have five := waitExpires ⟨Span.ofMillis 2,Span.zero⟩ never
    (show 0 < (Span.ofMillis 5).millisUp by decide)
  have three := waitExpires ⟨Span.ofMillis 2,Span.zero⟩ never
    (show 0 < (Span.ofMillis 3).millisUp by decide)
  exact ⟨(five.1 rfl).1 (.inr (by decide)),(three.1 rfl).2 (by decide) (by decide)⟩

end Watch
end PaneWatch
