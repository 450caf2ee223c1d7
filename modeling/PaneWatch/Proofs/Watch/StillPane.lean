import Mathlib.Data.ENat.Lattice
import PaneWatch.Proofs.Watch.Expiry

/-! A sequence on a pane that has stopped changing. Every target up to the iteration on the pane
is caught at its first poll and costs one settle delay, so three limits compete for the end: the
targets asked for, the iteration on the pane, and the delays that the budget pays for. -/
namespace PaneWatch.Watch

/- The least number of settle delays that use up the budget; delays that take no time never do. -/
def delaysFor (budget delay : Span) : ℕ∞ :=
  if delay.millis = 0 ∧ Span.zero < budget then ⊤ else polls budget delay

theorem delaysForLe {budget delay : Span} {j : ℕ} :
    delaysFor budget delay ≤ j ↔ budget ≤ Span.ofMillis (j * delay.millis) := by
  have late : budget ≤ Span.ofMillis (j * delay.millis) ↔
      budget.millisUp ≤ j * delay.millis := by
    rw [← Nat.not_lt,← Span.ofMillisLt]
    exact Nat.not_lt.symm
  rw [late,delaysFor]
  by_cases instant : delay.millis = 0
  · have empty : budget.millisUp ≤ 0 ↔ ¬ Span.zero < budget := by
      simp only [Span.lt_iff,Span.millisUp,Span.zero]
      omega
    rw [instant,Nat.mul_zero,empty]
    by_cases positive : Span.zero < budget
    · simp [positive]
    · have spent : budget.millisUp = 0 := Nat.le_zero.mp (empty.mpr positive)
      simp [positive,polls,spent]
  · rw [if_neg (instant ·.1),Nat.cast_le,← Nat.not_lt,pollsBefore (Nat.pos_of_ne_zero instant),
      Nat.not_lt]

structure Still (shown : UInt32) (b : Bench ScriptedPane) : Prop where
  usedUp : b.source.frames = []
  shows : Marker.iteration? b.source.last = some shown
  moves : b.clock.autoAdvance = true

namespace Still

variable {shown n : UInt32} {b : Bench ScriptedPane} {settings : Settings} {timeout : Span}
  {rounds : ℕ}

theorem sourceLater (still : Still shown b) (ms k : ℕ) :
    (b.later ms k).source = { b.source with captures := b.source.captures + k } :=
  usedUpAfter still.usedUp k

theorem later (still : Still shown b) (ms k : ℕ) : Still shown (b.later ms k) where
  usedUp := by rw [still.sourceLater,still.usedUp]
  shows := by rw [still.sourceLater,still.shows]
  moves := still.moves

theorem reached (still : Still shown b) :
    Watch.reached n b.source.last = true ↔ n ≤ shown := by
  rw [reachedShown,still.shows]
  simp

theorem caught (still : Still shown b) (waits : Span.zero < timeout) (le : n ≤ shown)
    (ticks : 1 ≤ settings.pollInterval.millis) (followed : 0 < rounds) :
    ∃ snapshot : Snapshot, wait rounds settings n timeout b =
        (some (.ok (some snapshot)),b.later settings.captureDelay.millis 2) ∧
      snapshot.content = b.source.last ∧ snapshot.iteration = shown := by
  have fits : b.clock.millis.toNat + 0 * settings.pollInterval.millis < UInt64.size := by
    rw [Nat.zero_mul]
    exact b.clock.millis.toNat_lt
  have before : 0 < polls timeout settings.pollInterval := by
    rw [pollsBefore ticks,Nat.zero_mul,← Span.ofMillisLt]
    exact waits
  have delayed : 0 * settings.pollInterval.millis + settings.captureDelay.millis =
      settings.captureDelay.millis := by rw [Nat.zero_mul,Nat.zero_add]
  have hit := waitShown still.moves ((pollInCount ticks fits).mpr before)
    (usedUpServes still.usedUp 0) (still.reached.mpr le)
  rw [usedUpServes still.usedUp 1,delayed] at hit
  refine ⟨Snapshot.ofContent b.source.last n (b.calendar (b.captures + 2)),?_,rfl,?_⟩
  · exact waitEndsInCount still.moves ticks fits followed (Nat.zero_le _)
      (fun j lt => absurd lt (Nat.not_lt_zero j)) hit
  · exact congrArg (Option.getD · n) still.shows

theorem missed (still : Still shown b) (lt : shown < n)
    (ticks : 1 ≤ settings.pollInterval.millis)
    (fits : b.clock.millis.toNat +
      polls timeout settings.pollInterval * settings.pollInterval.millis < UInt64.size)
    (followed : polls timeout settings.pollInterval < rounds) :
    wait rounds settings n timeout b = (some (.ok none),
      b.later (polls timeout settings.pollInterval * settings.pollInterval.millis)
        (polls timeout settings.pollInterval)) := by
  have goesOn : ∀ j < polls timeout settings.pollInterval, ¬ EndsWait n b.source (j+1) := by
    intro j _ ends
    have hit := still.reached.mp (shownAtEnd ends (usedUpServes still.usedUp j))
    exact absurd lt (UInt32.not_lt.mpr hit)
  have late : ¬ Stage.elapsedSince (Stage.now b)
      (b.later (polls timeout settings.pollInterval * settings.pollInterval.millis)
        (polls timeout settings.pollInterval)) < timeout :=
    mt (pollInCount ticks fits).mp (Nat.lt_irrefl _)
  exact waitEndsInCount still.moves ticks fits followed (Nat.le_refl _) goesOn
    (waitExact (.late late))

end Still

structure StillCall where
  settings : Settings
  lastTarget : UInt32
  timeout : Span
  budget : Span
  shown : UInt32

namespace StillCall

variable (x : StillCall)

def delay : ℕ := x.settings.captureDelay.millis

def poll : ℕ := x.settings.pollInterval.millis

def limit : ℕ∞ := delaysFor x.budget x.settings.captureDelay

def states : ℕ :=
  if x.limit ≤ min x.lastTarget.toNat x.shown.toNat then x.limit.toNat
  else min x.lastTarget.toNat x.shown.toNat

def clipped (i : ℕ) : Span := x.timeout.shorter (x.budget - Span.ofMillis (i * x.delay))

def idlePolls : ℕ :=
  if x.shown < x.lastTarget ∧ x.shown.toNat < x.limit then
    polls (x.clipped x.states) x.settings.pollInterval
  else 0

def millis : ℕ := x.states * x.delay + x.idlePolls * x.poll

def captures : ℕ := 2 * x.states + x.idlePolls

structure On (x : StillCall) (b : Bench ScriptedPane) : Prop extends Still x.shown b where
  ticks : 1 ≤ x.settings.pollInterval.millis
  waits : Span.zero < x.timeout
  fits : b.clock.millis.toNat + x.millis < UInt64.size

def after (b : Bench ScriptedPane) (i : ℕ) : Bench ScriptedPane := b.later (i * x.delay) (2 * i)

/- What is left to record once `i` targets have been caught, and where the call ends. -/
structure Closes (x : StillCall) (b : Bench ScriptedPane) (i : ℕ) (r : Recording)
    (last : Bench ScriptedPane) : Prop where
  captured : i + r.captured = x.states
  shows : ∀ s ∈ r.snapshots, s.content = b.source.last ∧ s.iteration = x.shown
  timedOut : r.timedOut = true ↔ x.limit < x.lastTarget.toNat ∧ x.limit ≤ x.shown.toNat
  ends : last = b.later x.millis x.captures

variable {x} {b : Bench ScriptedPane} {i : ℕ}

theorem statesMin :
    (x.states : ℕ∞) = min (x.lastTarget.toNat : ℕ∞) (min (x.shown.toNat : ℕ∞) x.limit) := by
  rw [← min_assoc,← Nat.mono_cast.map_min,states]
  by_cases spent : x.limit ≤ min x.lastTarget.toNat x.shown.toNat
  · have finite : x.limit ≠ ⊤ := ne_top_of_le_ne_top (ENat.natCast_ne_top _) spent
    rw [if_pos spent,ENat.natCast_toNat finite]
    exact (min_eq_right spent).symm
  · rw [if_neg spent]
    exact (min_eq_left (le_of_not_ge spent)).symm

theorem statesLe : i ≤ x.states ↔
    i ≤ x.lastTarget.toNat ∧ i ≤ x.shown.toNat ∧ (i : ℕ∞) ≤ x.limit := by
  rw [← Nat.cast_le (α := ℕ∞),statesMin,le_min_iff,le_min_iff,Nat.cast_le,Nat.cast_le]

theorem statesLt : i < x.states ↔
    i < x.lastTarget.toNat ∧ i < x.shown.toNat ∧ (i : ℕ∞) < x.limit := by
  rw [← Nat.succ_le_iff,statesLe,Nat.cast_succ,ENat.add_one_le_iff (ENat.natCast_ne_top _)]
  rfl

theorem statesStop (le : i ≤ x.states)
    (stop : x.lastTarget.toNat ≤ i ∨ x.shown.toNat ≤ i ∨ x.limit ≤ i) : x.states = i := by
  refine Nat.le_antisymm (Nat.not_lt.mp fun more => ?_) le
  obtain ⟨wanted,below,afforded⟩ := statesLt.mp more
  rcases stop with all | shown | spent
  · exact absurd wanted (Nat.not_lt.mpr all)
  · exact absurd below (Nat.not_lt.mpr shown)
  · exact absurd afforded (not_lt.mpr spent)

theorem limitLe : x.limit ≤ i ↔ x.budget ≤ Span.ofMillis (i * x.delay) := delaysForLe

theorem afterNext : (x.after b i).later x.delay 2 = x.after b (i+1) := by
  rw [after,Bench.laterLater,← Nat.succ_mul,← Nat.mul_succ]
  rfl

theorem closesAtOnce (reached : x.lastTarget ≤ x.shown ∨ x.limit ≤ x.shown.toNat) :
    x.after b x.states = b.later x.millis x.captures := by
  have idle : x.idlePolls = 0 := by
    refine if_neg fun ⟨more,afforded⟩ => ?_
    rcases reached with all | spent
    · exact absurd more (UInt32.not_lt.mpr all)
    · exact absurd afforded (not_lt.mpr spent)
  rw [millis,captures,idle,Nat.zero_mul]
  rfl

namespace On

variable {rounds : ℕ}

theorem elapsed (on : x.On b) (le : i ≤ x.states) :
    Stage.elapsedSince (Stage.now b) (x.after b i) = Span.ofMillis (i * x.delay) := by
  have most : i * x.delay ≤ x.millis :=
    Nat.le_trans (Nat.mul_le_mul_right _ le) (Nat.le_add_right _ _)
  exact Bench.laterElapsed (Nat.lt_of_le_of_lt (Nat.add_le_add_left most _) on.fits) _

theorem budgetSpent (on : x.On b) (le : i ≤ x.states) :
    x.budget ≤ Stage.elapsedSince (Stage.now b) (x.after b i) ↔ x.limit ≤ i := by
  rw [on.elapsed le,limitLe]

theorem remaining (on : x.On b) (le : i ≤ x.states) :
    x.timeout.shorter (x.budget - Stage.elapsedSince (Stage.now b) (x.after b i)) =
      x.clipped i := by
  rw [on.elapsed le]
  rfl

theorem caughtNext (on : x.On b) (followed : 0 < rounds) (less : i < x.states) :
    ∃ snapshot : Snapshot, wait rounds x.settings (UInt32.ofNat (i+1)) (x.clipped i) (x.after b i) =
        (some (.ok (some snapshot)),x.after b (i+1)) ∧
      snapshot.content = b.source.last ∧ snapshot.iteration = x.shown := by
  obtain ⟨wanted,below,afforded⟩ := statesLt.mp less
  have small : i + 1 < UInt32.size := Nat.lt_of_le_of_lt wanted x.lastTarget.toNat_lt
  have reached : UInt32.ofNat (i+1) ≤ x.shown := by
    rw [UInt32.le_iff_toNat_le,UInt32.toNat_ofNat_of_lt' small]
    exact below
  have positive : Span.zero < x.clipped i := by
    have left := mt limitLe.mpr (not_le.mpr afforded)
    have waits := on.waits
    simp only [clipped,Span.lt_iff,Span.le_iff,Span.nanosShorter,Span.nanos_sub,Span.zero] at *
    omega
  obtain ⟨snapshot,waited,content,iteration⟩ :=
    (on.later (i * x.delay) (2 * i)).caught positive reached on.ticks followed
  refine ⟨snapshot,waited.trans ?_,?_,iteration⟩
  · exact congrArg (Prod.mk _) afterNext
  · rw [content,on.sourceLater]

theorem missedNext (on : x.On b) (followed : x.idlePolls < rounds) (more : x.shown < x.lastTarget)
    (afforded : (x.shown.toNat : ℕ∞) < x.limit) (all : x.states = x.shown.toNat) :
    wait rounds x.settings (UInt32.ofNat (x.states + 1)) (x.clipped x.states)
      (x.after b x.states) = (some (.ok none),b.later x.millis x.captures) := by
  have idle : x.idlePolls = polls (x.clipped x.states) x.settings.pollInterval :=
    if_pos ⟨more,afforded⟩
  have wanted : x.shown < UInt32.ofNat (x.states + 1) := by
    have most : x.states + 1 ≤ x.lastTarget.toNat := all ▸ UInt32.lt_iff_toNat_lt.mp more
    have small : x.states + 1 < UInt32.size := Nat.lt_of_le_of_lt most x.lastTarget.toNat_lt
    rw [UInt32.lt_iff_toNat_lt,UInt32.toNat_ofNat_of_lt' small,all]
    exact Nat.lt_succ_self _
  have fits := on.fits
  rw [millis,← Nat.add_assoc] at fits
  have count : (x.after b x.states).clock.millis.toNat =
      b.clock.millis.toNat + x.states * x.delay :=
    Bench.laterMillis (Nat.lt_of_le_of_lt (Nat.le_add_right _ _) fits) _
  rw [idle] at followed
  rw [idle,← count] at fits
  rw [millis,captures,idle,← Bench.laterLater]
  exact (on.later (x.states * x.delay) (2 * x.states)).missed wanted on.ticks fits followed

theorem targets (on : x.On b) (followed : x.idlePolls < rounds) (left i : ℕ)
    (remembered : Option UInt32) (all : i + left = x.lastTarget.toNat) (le : i ≤ x.states) :
    ∃ r q, TargetRun rounds x.settings x.timeout x.budget (Stage.now b) left (i+1)
        ⟨x.after b i,remembered⟩ (some (.ok r),q) ∧ x.Closes b i r q.stage := by
  induction left generalizing i remembered with
  | zero =>
    obtain ⟨_,notPast,affordable⟩ := statesLe.mp le
    have last : x.lastTarget.toNat = i := all.symm
    have same : x.states = i := statesStop le (.inl (Nat.le_of_eq last))
    refine ⟨_,_,.finished (i+1) _,same.symm,by simp [Recording.empty],?_,?_⟩
    · simpa [Recording.empty,last] using fun h => absurd affordable (not_le.mpr h)
    · rw [← closesAtOnce (.inl (UInt32.le_iff_toNat_le.mpr (last ▸ notPast))),same]
  | succ left ih =>
    obtain ⟨_,notPast,affordable⟩ := statesLe.mp le
    have wanted : i < x.lastTarget.toNat := by omega
    by_cases gone : x.limit ≤ i
    · have same : x.states = i := statesStop le (.inr (.inr gone))
      have spent : x.limit ≤ x.shown.toNat := gone.trans (Nat.cast_le.mpr notPast)
      refine ⟨_,_,.spent ((on.budgetSpent le).mpr gone),same.symm,by simp,?_,?_⟩
      · simpa using ⟨gone.trans_lt (Nat.cast_lt.mpr wanted),spent⟩
      · rw [← closesAtOnce (.inr spent),same]
    have inTime := mt (on.budgetSpent le).mp gone
    have afforded : (i : ℕ∞) < x.limit := not_le.mp gone
    by_cases reached : i < x.shown.toNat
    · have less : i < x.states := statesLt.mpr ⟨wanted,reached,afforded⟩
      obtain ⟨snapshot,waited,shows⟩ := on.caughtNext (Nat.zero_lt_of_lt followed) less
      rw [← on.remaining le] at waited
      obtain ⟨r,q,rest,closes⟩ := ih (i+1) (some (UInt32.ofNat (i+1))) (by omega) less
      have run := TargetRun.caught (p := ⟨x.after b i,remembered⟩) inTime waited rest
      refine ⟨prepend snapshot r,q,run,?_,?_,closes.timedOut,closes.ends⟩
      · have count : (prepend snapshot r).captured = r.captured + 1 := rfl
        rw [count,← closes.captured]
        omega
      · exact List.forall_mem_cons.mpr ⟨shows,closes.shows⟩
    · have shown : x.shown.toNat = i := by omega
      have same : x.states = i := statesStop le (.inr (.inl (Nat.le_of_eq shown)))
      have waited := on.missedNext followed (UInt32.lt_iff_toNat_lt.mpr (shown ▸ wanted))
        (shown ▸ afforded) (same.trans shown.symm)
      rw [same,← on.remaining le] at waited
      refine ⟨_,_,.missed inTime waited,same.symm,by simp [Recording.empty],?_,rfl⟩
      simpa [Recording.empty,shown] using fun _ => afforded

end On
end StillCall

theorem stillSequence {x : StillCall} {b : Bench ScriptedPane} (on : x.On b)
    (remembered : Option UInt32) :
    ∃ r q, Returns (fun rounds => sequence rounds x.settings x.lastTarget x.timeout x.budget
        ⟨b,remembered⟩) (.ok r) q ∧
      r.captured = x.states ∧
      (∀ s ∈ r.snapshots, s.content = b.source.last ∧ s.iteration = x.shown) ∧
      (r.timedOut = true ↔ x.limit < x.lastTarget.toNat ∧ x.limit ≤ x.shown.toNat) ∧
      b.Moved x.millis x.captures q.stage := by
  obtain ⟨r,q,run,closes⟩ := on.targets (Nat.lt_succ_self _) x.lastTarget.toNat 0 remembered
    (Nat.zero_add _) (Nat.zero_le _)
  have begun : x.after b 0 = b := by
    rw [StillCall.after,Nat.zero_mul,Nat.mul_zero,Bench.laterStart]
  rw [begun] at run
  refine ⟨r,q,⟨_,targetExact run⟩,?_,closes.shows,closes.timedOut,?_⟩
  · rw [← closes.captured,Nat.zero_add]
  · rw [closes.ends]
    exact Bench.laterMoved on.fits _

def idleCall : StillCall :=
  ⟨⟨Span.ofMillis 10,Span.ofMillis 20⟩,5,⟨25000001⟩,Span.ofMillis 100,3⟩

def idleBench : Bench ScriptedPane :=
  .start (.startingAt (UInt64.ofNat (UInt64.size - 91))) ⟨[],"[iter 3]",0⟩ fun _ => .epoch

theorem stillSequenceIdle :
    ∃ r q, Returns (fun rounds => sequence rounds idleCall.settings 5 ⟨25000001⟩ (Span.ofMillis 100)
        ⟨idleBench,none⟩) (.ok r) q ∧
      r.captured = 3 ∧ (∀ s ∈ r.snapshots, s.content = "[iter 3]" ∧ s.iteration = 3) ∧
      r.timedOut = false ∧ idleBench.Moved 90 9 q.stage := by
  have on : idleCall.On idleBench := ⟨⟨rfl,by rfl,rfl⟩,by decide,by decide,by decide⟩
  obtain ⟨r,q,returned,captured,shows,timedOut,moved⟩ := stillSequence on none
  have budgetLasts : ¬ (idleCall.limit < 5 ∧ idleCall.limit ≤ 3) := by decide
  exact ⟨r,q,returned,captured,shows,Bool.eq_false_iff.mpr (mt timedOut.mp budgetLasts),moved⟩

end PaneWatch.Watch
