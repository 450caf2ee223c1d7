import PaneWatch.Proofs.Time.Millis
import PaneWatch.Proofs.Watch.Journal

/-! The deadlines of a recorded run on a fake clock. Every capture belongs to the attempt at one
target, as one of its polls or as the one that settles after the last of them. A wait is clipped
to what is left of the budget when it begins, so no poll is made once the budget has run out,
and the run ends one sleep later at most. A wrap of the count only makes readings smaller. -/
namespace PaneWatch

def Settings.longestSleep (s : Settings) : Span :=
  Span.ofMillis (max s.pollInterval.counted s.captureDelay.counted)

theorem Bench.slept {π ε : Type} [Source π ε] (b : Bench π) (d : Span) :
    Stage.now (Stage.sleep d b) ≤ Stage.now b + Span.ofMillis d.counted := by
  obtain ⟨⟨count,_ | _⟩,source,captures,calendar⟩ := b
  · exact Nat.le_add_right _ _
  · exact Millis.nowAdvanced count d

namespace Watch

/- What was captured while one target was waited for, from the reading of the clock on at which
that began. -/
structure Attempt (ε : Type) where
  begun : Span
  polls : List (Capture ε)
  settled : Option (Capture ε)

def Attempt.captures {ε : Type} (a : Attempt ε) : List (Capture ε) := a.polls ++ a.settled.toList

inductive Told {ε : Type} (n : UInt32) : List (Capture ε) → Option (Capture ε) → Prop where
  | nothing : Told n [] none
  | failed {time e} : Told n [⟨time,.error e⟩] none
  | hit {e} (hits : Hits n e) (settled : Capture ε) : Told n [e] (some settled)
  | miss {e polls settled} (misses : Misses n e) (rest : Told n polls settled) :
      Told n (e::polls) settled

structure Timely {ε : Type} (delay due : Span) (polls : List (Capture ε))
    (settled : Option (Capture ε)) : Prop where
  polled : ∀ e ∈ polls, e.time < due
  settled : ∀ e ∈ settled, e.time < due + Span.ofMillis delay.counted

namespace Timely

variable {ε : Type} {delay due : Span} {e : Capture ε} {polls : List (Capture ε)}
  {settled : Option (Capture ε)}

theorem nothing : Timely delay due ([] : List (Capture ε)) none := ⟨by simp,by simp⟩

theorem poll (early : e.time < due) (rest : Timely delay due polls settled) :
    Timely delay due (e::polls) settled where
  polled := List.forall_mem_cons.mpr ⟨early,rest.polled⟩
  settled := rest.settled

theorem settling {f : Capture ε} (early : e.time < due)
    (settled : f.time < due + Span.ofMillis delay.counted) :
    Timely delay due [e] (some f) where
  polled := List.forall_mem_singleton.mpr early
  settled := by simpa using settled

theorem later {limit : Span} (timely : Timely delay due polls settled) (le : due ≤ limit) :
    Timely delay limit polls settled where
  polled := fun e mem => Nat.lt_of_lt_of_le (timely.polled e mem) le
  settled := fun e mem =>
    Nat.lt_of_lt_of_le (timely.settled e mem) (Nat.add_le_add_right le _)

end Timely

section Attempts

variable {σ ε : Type} [Stage σ ε]

structure Attempted (rounds : Nat) (settings : Settings) (timeout budget start : Span)
    (target : Nat) (j : Journal σ ε) (a : Attempt ε) (answer : Option (WaitAnswer ε))
    (k : Journal σ ε) : Prop where
  begun : a.begun = Stage.now j
  waited : wait rounds settings (UInt32.ofNat target)
    (timeout.shorter (budget - Stage.elapsedSince start j)) j = (answer,k)
  written : k.entries = j.entries ++ a.captures
  told : Told (UInt32.ofNat target) a.polls a.settled

inductive Attempts (rounds : Nat) (settings : Settings) (timeout budget start : Span) :
    (left target : Nat) → Journal σ ε → List (Attempt ε) → Journal σ ε → Prop where
  | finished (target j) : Attempts rounds settings timeout budget start 0 target j [] j
  | spent {left target j} (gone : budget ≤ Stage.elapsedSince start j) :
      Attempts rounds settings timeout budget start (left+1) target j [] j
  | last {left target j a answer k}
      (made : Attempted rounds settings timeout budget start target j a answer k)
      (uncaught : ∀ snapshot, answer ≠ some (.ok (some snapshot))) :
      Attempts rounds settings timeout budget start (left+1) target j [a] k
  | caught {left target j a snapshot k attempts l}
      (made : Attempted rounds settings timeout budget start target j a
        (some (.ok (some snapshot))) k)
      (rest : Attempts rounds settings timeout budget start left (target+1) k attempts l) :
      Attempts rounds settings timeout budget start (left+1) target j (a::attempts) l

theorem attemptsWritten {rounds : Nat} {settings : Settings} {timeout budget start : Span}
    {left target : Nat} {j k : Journal σ ε} {attempts}
    (made : Attempts rounds settings timeout budget start left target j attempts k) :
    k.entries = j.entries ++ attempts.flatMap Attempt.captures := by
  induction made with
  | finished target j => exact (List.append_nil _).symm
  | spent gone => exact (List.append_nil _).symm
  | last made uncaught => rw [made.written,List.flatMap_cons,List.flatMap_nil,List.append_nil]
  | caught made rest ih => rw [ih,made.written,List.flatMap_cons,List.append_assoc]

/- What a budget spent from `start` on and a timeout for each target promise of an attempt. That
the time passed is below the budget is what the length of the wait is computed from. -/
structure Attempt.Punctual (settings : Settings) (timeout budget start : Span) (a : Attempt ε) :
    Prop where
  affordable : a.begun - start < budget
  inBudget : Timely settings.captureDelay (start + budget) a.polls a.settled
  inTime : Timely settings.captureDelay (a.begun + timeout) a.polls a.settled

end Attempts

section Bench

variable {π ε : Type} [Source π ε]

theorem capturedBefore {j k : Journal (Bench π) ε} {outcome} {due : Span}
    (capture : Stage.capture j = (outcome,k)) (early : Stage.now j < due) : Stage.now k < due := by
  obtain ⟨_,rfl⟩ := Prod.mk.inj capture
  exact early

theorem beforeDeadline {now start timeout : Span} (early : now - start < timeout) :
    now < start + timeout := by
  simp only [Span.lt_iff,Span.nanos_sub,Span.nanos_add] at *
  omega

theorem settledInTime {settings : Settings} {n : UInt32} {due : Span} {j k : Journal (Bench π) ε}
    {answer} (settles : Settles settings n j (answer,k)) (early : Stage.now j < due) :
    Stage.now k < due + Span.ofMillis settings.captureDelay.counted ∧
      ∃ outcome, k.entries = j.entries ++ [⟨Stage.now k,outcome⟩] := by
  have slept : Stage.now (Stage.sleep settings.captureDelay j) ≤
      Stage.now j + Span.ofMillis settings.captureDelay.counted := Bench.slept j.stage _
  have inTime : Stage.now (Stage.sleep settings.captureDelay j) <
      due + Span.ofMillis settings.captureDelay.counted :=
    Nat.lt_of_le_of_lt slept (Nat.add_lt_add_right early _)
  cases settles with
  | failed capture =>
    have second := Journal.captured capture
    exact ⟨capturedBefore capture inTime,_,second⟩
  | shown capture =>
    have second := Journal.captured capture
    exact ⟨capturedBefore capture inTime,_,second⟩

theorem roundsTimely (settings : Settings) (n : UInt32) (timeout start : Span) (rounds : Nat)
    (j : Journal (Bench π) ε) :
    ∃ polls settled,
      (Round.within (waitRound settings n timeout start) rounds j).2.entries =
        j.entries ++ (polls ++ settled.toList) ∧
      Told n polls settled ∧ Timely settings.captureDelay (start + timeout) polls settled := by
  induction rounds generalizing j with
  | zero => exact ⟨[],none,(List.append_nil _).symm,.nothing,.nothing⟩
  | succ rounds ih =>
    have step := waitCases settings n timeout start j
    generalize same : waitRound settings n timeout start j = round at step
    cases step with
    | late late =>
      rw [Round.withinDone same]
      exact ⟨[],none,(List.append_nil _).symm,.nothing,.nothing⟩
    | @failed e t early capture =>
      rw [Round.withinDone same]
      have due := capturedBefore capture (beforeDeadline early)
      exact ⟨[⟨Stage.now t,.error e⟩],none,Journal.captured capture,.failed,.poll due .nothing⟩
    | @hit text t answer u early capture hit settles =>
      rw [Round.withinDone same]
      have due := capturedBefore capture (beforeDeadline early)
      obtain ⟨inTime,outcome,second⟩ := settledInTime settles due
      refine ⟨[⟨Stage.now t,.ok text⟩],some ⟨Stage.now u,outcome⟩,?_,.hit ⟨text,rfl,hit⟩ _,
        .settling due inTime⟩
      rw [second,Journal.captured capture,List.append_assoc]
      rfl
    | @miss text t early capture miss =>
      rw [Round.withinAgain same]
      have due := capturedBefore capture (beforeDeadline early)
      obtain ⟨polls,settled,entries,told,timely⟩ := ih (Stage.sleep settings.pollInterval t)
      refine ⟨⟨Stage.now t,.ok text⟩::polls,settled,?_,.miss ⟨text,rfl,miss⟩ told,
        .poll due timely⟩
      -- The sleep between two polls writes nothing.
      rw [entries]
      change t.entries ++ _ = _
      rw [Journal.captured capture,List.append_assoc]
      rfl

/- What is left of the budget is what it is clipped to. A clock that went back before `start`
has the whole budget left, and is due even earlier. -/
theorem clippedToBudget {timeout budget start now : Span} (affordable : now - start < budget) :
    now + timeout.shorter (budget - (now - start)) ≤ start + budget := by
  simp only [Span.lt_iff,Span.le_iff,Span.nanos_sub,Span.nanos_add,Span.nanosShorter] at *
  omega

theorem clippedToTimeout (timeout left now : Span) :
    now + timeout.shorter left ≤ now + timeout := by
  simp only [Span.le_iff,Span.nanos_add,Span.nanosShorter]
  omega

theorem attempted {rounds : Nat} {settings : Settings} {timeout budget start : Span} {target : Nat}
    {j k : Journal (Bench π) ε} {answer} (inTime : ¬ budget ≤ Stage.elapsedSince start j)
    (waited : wait rounds settings (UInt32.ofNat target)
      (timeout.shorter (budget - Stage.elapsedSince start j)) j = (answer,k)) :
    ∃ a, Attempted rounds settings timeout budget start target j a answer k ∧
      a.Punctual settings timeout budget start := by
  have affordable : Stage.now j - start < budget := Nat.lt_of_not_le inTime
  obtain ⟨polls,settled,entries,told,timely⟩ := roundsTimely settings (UInt32.ofNat target)
    (timeout.shorter (budget - Stage.elapsedSince start j)) (Stage.now j) rounds j
  rw [show Round.within _ rounds j = _ from waited] at entries
  exact ⟨⟨Stage.now j,polls,settled⟩,⟨rfl,waited,entries,told⟩,affordable,
    timely.later (clippedToBudget affordable),timely.later (clippedToTimeout ..)⟩

theorem attemptsPunctual {rounds : Nat} {settings : Settings} {timeout budget start : Span}
    {left target : Nat} {p : Progress (Journal (Bench π) ε)} {out}
    (run : TargetRun rounds settings timeout budget start left target p out) :
    ∃ attempts,
      Attempts rounds settings timeout budget start left target p.stage attempts out.2.stage ∧
      ∀ a ∈ attempts, a.Punctual settings timeout budget start := by
  induction run with
  | finished target p => exact ⟨[],.finished target p.stage,by simp⟩
  | spent gone => exact ⟨[],.spent gone,by simp⟩
  | pending inTime waited =>
    obtain ⟨a,made,punctual⟩ := attempted inTime waited
    exact ⟨[a],.last made (by simp),by simpa using punctual⟩
  | failed inTime waited =>
    obtain ⟨a,made,punctual⟩ := attempted inTime waited
    exact ⟨[a],.last made (by simp),by simpa using punctual⟩
  | missed inTime waited =>
    obtain ⟨a,made,punctual⟩ := attempted inTime waited
    exact ⟨[a],.last made (by simp),by simpa using punctual⟩
  | caught inTime waited rest ih =>
    obtain ⟨a,made,punctual⟩ := attempted inTime waited
    obtain ⟨attempts,others,rest⟩ := ih
    exact ⟨a::attempts,.caught made others,List.forall_mem_cons.mpr ⟨punctual,rest⟩⟩

theorem oneSleep {a due : Span} {d most : Nat} (le : a ≤ due) (short : d ≤ most) :
    a + Span.ofMillis d ≤ due + Span.ofMillis most := by
  simp only [Span.le_iff,Span.nanos_add,Span.nanos_ofMillis] at *
  omega

theorem roundEnds {settings : Settings} {n : UInt32} {timeout start due : Span}
    (le : start + timeout ≤ due) (j : Journal (Bench π) ε)
    (before : Stage.now j ≤ due + settings.longestSleep) :
    Stage.now (waitRound settings n timeout start j).left ≤ due + settings.longestSleep := by
  have step := waitCases settings n timeout start j
  generalize waitRound settings n timeout start j = round at step ⊢
  cases step with
  | late late => exact before
  | failed early capture =>
    obtain ⟨_,rfl⟩ := Prod.mk.inj capture
    exact before
  | hit early capture hit settles =>
    have settled := (settledInTime settles (capturedBefore capture (beforeDeadline early))).1
    exact Nat.le_trans (Nat.le_of_lt settled) (oneSleep le (Nat.le_max_right _ _))
  | @miss text t early capture miss =>
    have inTime := capturedBefore capture (beforeDeadline early)
    have notLater : Stage.now t ≤ due := Nat.le_trans (Nat.le_of_lt inTime) le
    have slept : Stage.now (Stage.sleep settings.pollInterval t) ≤
        Stage.now t + Span.ofMillis settings.pollInterval.counted := Bench.slept t.stage _
    exact Nat.le_trans slept (oneSleep notLater (Nat.le_max_left _ _))

theorem waitEndsBy {rounds : Nat} {settings : Settings} {n : UInt32} {timeout budget start : Span}
    {j k : Journal (Bench π) ε} {answer} (inTime : ¬ budget ≤ Stage.elapsedSince start j)
    (waited : wait rounds settings n (timeout.shorter (budget - Stage.elapsedSince start j)) j =
      (answer,k))
    (before : Stage.now j ≤ start + budget + settings.longestSleep) :
    Stage.now k ≤ start + budget + settings.longestSleep := by
  have due : Stage.now j + timeout.shorter (budget - Stage.elapsedSince start j) ≤ start + budget :=
    clippedToBudget (Nat.lt_of_not_le inTime)
  have ends := Round.withinKeeps (roundEnds (n := n) due) rounds before
  rwa [show Round.within _ rounds j = _ from waited] at ends

theorem targetsEndBy {rounds : Nat} {settings : Settings} {timeout budget start : Span}
    {left target : Nat} {p : Progress (Journal (Bench π) ε)} {out}
    (run : TargetRun rounds settings timeout budget start left target p out)
    (before : Stage.now p.stage ≤ start + budget + settings.longestSleep) :
    Stage.now out.2.stage ≤ start + budget + settings.longestSleep := by
  induction run with
  | finished target p => exact before
  | spent gone => exact before
  | pending inTime waited => exact waitEndsBy inTime waited before
  | failed inTime waited => exact waitEndsBy inTime waited before
  | missed inTime waited => exact waitEndsBy inTime waited before
  | caught inTime waited rest ih => exact ih (waitEndsBy inTime waited before)

theorem deadlinesKept {rounds : Nat} {settings : Settings} {lastTarget : UInt32}
    {timeout budget : Span} {p q : Progress (Bench π)} {answer : Option (Except ε Recording)}
    (run : sequence rounds settings lastTarget timeout budget p = (answer,q)) :
    ∃ (attempts : List (Attempt ε)) (k : Journal (Bench π) ε),
      sequence rounds settings lastTarget timeout budget ⟨Journal.start p.stage,p.lastIteration⟩ =
        (answer,⟨k,q.lastIteration⟩) ∧ k.stage = q.stage ∧
      k.entries = attempts.flatMap Attempt.captures ∧
      Attempts rounds settings timeout budget (Stage.now p.stage) lastTarget.toNat 1
        (Journal.start p.stage) attempts k ∧
      (∀ a ∈ attempts, a.Punctual settings timeout budget (Stage.now p.stage)) ∧
      Stage.now q.stage ≤ Stage.now p.stage + budget + settings.longestSleep := by
  obtain ⟨entries,journaled⟩ := sequenceJournaled rounds settings lastTarget timeout budget p
  rw [run] at journaled
  have targets := sequenceRun journaled
  change TargetRun rounds settings timeout budget (Stage.now p.stage) _ 1 _ _ at targets
  obtain ⟨attempts,made,punctual⟩ := attemptsPunctual targets
  have began : Stage.now (Journal.start p.stage : Journal (Bench π) ε) ≤
      Stage.now p.stage + budget + settings.longestSleep :=
    Nat.le_trans (Nat.le_add_right _ _) (Nat.le_add_right _ _)
  have ends := targetsEndBy targets began
  exact ⟨attempts,⟨q.stage,entries⟩,journaled,rfl,attemptsWritten made,made,punctual,ends⟩

end Bench

def clippedBench : Bench ScriptedPane :=
  .start (.startingAt 3) (.ofFrames [.ok "[iter 1]",.ok "[iter 1] 0:03",.ok "[iter 2]"])
    fun _ => .epoch

def clippedSettings : Settings := ⟨Span.ofMillis 10,Span.ofMillis 25⟩

def clippedStart : Progress (Bench ScriptedPane) := ⟨clippedBench,none⟩

def clippedRecording : Recording :=
  ⟨[Snapshot.ofContent "[iter 1] 0:03" 1 .epoch,Snapshot.ofContent "[iter 2]" 2 .epoch],none,true⟩

theorem deadlinesKeptClipped :
    ∃ q, sequence 9 clippedSettings 4 (Span.ofMillis 40) (Span.ofMillis 30) clippedStart =
        (some (.ok clippedRecording),q) ∧
      ∃ attempts k,
        sequence 9 clippedSettings 4 (Span.ofMillis 40) (Span.ofMillis 30)
            ⟨Journal.start clippedStart.stage,clippedStart.lastIteration⟩ =
          (some (.ok clippedRecording),⟨k,q.lastIteration⟩) ∧ k.stage = q.stage ∧
        k.entries = attempts.flatMap Attempt.captures ∧
        Attempts 9 clippedSettings (Span.ofMillis 40) (Span.ofMillis 30)
          (Stage.now clippedStart.stage) 4 1 (Journal.start clippedStart.stage) attempts k ∧
        (∀ a ∈ attempts, a.Punctual clippedSettings (Span.ofMillis 40) (Span.ofMillis 30)
          (Stage.now clippedStart.stage)) ∧
        Stage.now q.stage ≤ Span.ofMillis 58 := by
  have answer : (sequence 9 clippedSettings 4 (Span.ofMillis 40) (Span.ofMillis 30)
      clippedStart).1 = some (.ok clippedRecording) := by rfl
  have recorded : sequence 9 clippedSettings 4 (Span.ofMillis 40) (Span.ofMillis 30) clippedStart =
      (some (.ok clippedRecording),
        (sequence 9 clippedSettings 4 (Span.ofMillis 40) (Span.ofMillis 30) clippedStart).2) := by
    rw [← answer]
  have limit : Stage.now clippedStart.stage + Span.ofMillis 30 + clippedSettings.longestSleep =
        Span.ofMillis 58 := by decide
  obtain ⟨attempts,k,journaled,same,written,made,punctual,ends⟩ := deadlinesKept recorded
  rw [limit] at ends
  exact ⟨_,recorded,attempts,k,journaled,same,written,made,punctual,ends⟩

end Watch
end PaneWatch
