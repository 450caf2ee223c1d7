import PaneWatch.Proofs.Watch.Served
import PaneWatch.Proofs.Watch.Steps
import PaneWatch.Session

/-! A wait for an iteration on a bench whose clock moves with it, told from the outcomes that
the source will serve: which poll ends it, how many captures it makes and where the clock is
left. -/
namespace PaneWatch.Watch

variable {π ε : Type} [Source π ε]

inductive EndsWait (n : UInt32) (p : π) (k : Nat) : Prop where
  | failed {e} (served : Source.served p k = .error e)
  | shown {text shown} (served : Source.served p k = .ok text)
      (marker : Marker.iteration? text = some shown) (reached : n ≤ shown)

theorem goesOnWaiting {n : UInt32} {p : π} {k : Nat} (goesOn : ¬ EndsWait n p k) :
    ∃ text, Source.served p k = .ok text ∧ reached n text = false := by
  rcases served : Source.served p k with e | text
  · exact absurd (.failed served) goesOn
  · refine ⟨text,rfl,Bool.eq_false_iff.mpr fun hit => goesOn ?_⟩
    obtain ⟨shown,marker,le⟩ := reachedShown.mp hit
    exact .shown served marker le

theorem shownAtEnd {n : UInt32} {p : π} {k : Nat} {text : String} (ends : EndsWait n p k)
    (served : Source.served p k = .ok text) : reached n text = true := by
  cases ends with
  | failed failed => rw [failed] at served; cases served
  | shown shown marker le =>
    rw [shown] at served
    cases served
    exact reachedShown.mpr ⟨_,marker,le⟩

section Rounds

variable {settings : Settings} {n : UInt32} {timeout : Span} {b : Bench π} {k : Nat}

theorem waitMissed {ms : Nat}
    (early : Stage.elapsedSince (Stage.now b) (b.later ms k) < timeout)
    (goesOn : ¬ EndsWait n b.source (k+1)) :
    waitRound settings n timeout (Stage.now b) (b.later ms k) =
      .again (Stage.sleep settings.pollInterval (b.later ms (k+1))) := by
  obtain ⟨text,served,miss⟩ := goesOnWaiting goesOn
  have capture := Bench.laterCapture b ms k
  rw [served] at capture
  exact waitExact (.miss early capture miss)

theorem waitPassed (moves : b.clock.autoAdvance = true)
    (early : Stage.elapsedSince (Stage.now b) (b.later (k * settings.pollInterval.millis) k) <
      timeout) (goesOn : ¬ EndsWait n b.source (k+1)) :
    waitRound settings n timeout (Stage.now b) (b.later (k * settings.pollInterval.millis) k) =
      .again (b.later ((k+1) * settings.pollInterval.millis) (k+1)) := by
  rw [waitMissed early goesOn,Bench.laterSleep moves,← Nat.succ_mul]

theorem waitFailed {e : ε}
    (early : Stage.elapsedSince (Stage.now b) (b.later (k * settings.pollInterval.millis) k) <
      timeout) (served : Source.served b.source (k+1) = .error e) :
    waitRound settings n timeout (Stage.now b) (b.later (k * settings.pollInterval.millis) k) =
      .done (.error e) (b.later (k * settings.pollInterval.millis) (k+1)) := by
  have capture := Bench.laterCapture b (k * settings.pollInterval.millis) k
  rw [served] at capture
  exact waitExact (.failed early capture)

theorem settlesLater (moves : b.clock.autoAdvance = true) (ms : Nat) :
    Settles settings n (b.later ms k)
      ((Source.served b.source (k+1)).map fun text =>
        some (Snapshot.ofContent text n (b.calendar (b.captures + (k+1)))),
        b.later (ms + settings.captureDelay.millis) (k+1)) := by
  have capture : Stage.capture (Stage.sleep settings.captureDelay (b.later ms k)) =
      (Source.served b.source (k+1),b.later (ms + settings.captureDelay.millis) (k+1)) := by
    rw [Bench.laterSleep moves,Bench.laterCapture]
  rcases served : Source.served b.source (k+1) with e | text
  · rw [served] at capture
    exact .failed capture
  · rw [served] at capture
    exact .shown capture

theorem waitShown {text : String} (moves : b.clock.autoAdvance = true)
    (early : Stage.elapsedSince (Stage.now b) (b.later (k * settings.pollInterval.millis) k) <
      timeout) (served : Source.served b.source (k+1) = .ok text) (hit : reached n text = true) :
    waitRound settings n timeout (Stage.now b) (b.later (k * settings.pollInterval.millis) k) =
      .done ((Source.served b.source (k+2)).map fun text =>
          some (Snapshot.ofContent text n (b.calendar (b.captures + (k+2)))))
        (b.later (k * settings.pollInterval.millis + settings.captureDelay.millis) (k+2)) := by
  have capture := Bench.laterCapture b (k * settings.pollInterval.millis) k
  rw [served] at capture
  exact waitExact (.hit early capture hit (settlesLater moves _))

theorem waitEndsInCount {rounds : Nat} {answer : WaitAnswer ε} {c : Bench π}
    (moves : b.clock.autoAdvance = true) (ticks : 1 ≤ settings.pollInterval.millis)
    (fits : b.clock.millis.toNat + k * settings.pollInterval.millis < UInt64.size)
    (enough : k < rounds) (before : k ≤ polls timeout settings.pollInterval)
    (goesOn : ∀ j < k, ¬ EndsWait n b.source (j+1))
    (last : waitRound settings n timeout (Stage.now b)
      (b.later (k * settings.pollInterval.millis) k) = .done answer c) :
    wait rounds settings n timeout b = (some answer,c) := by
  have steps : ∀ j < k, waitRound settings n timeout (Stage.now b)
      (b.later (j * settings.pollInterval.millis) j) =
        .again (b.later ((j+1) * settings.pollInterval.millis) (j+1)) := by
    intro j lt
    have le := Nat.mul_le_mul_right settings.pollInterval.millis (Nat.le_of_lt lt)
    have inCount : b.clock.millis.toNat + j * settings.pollInterval.millis < UInt64.size := by
      omega
    have early := (pollInCount ticks inCount).mpr (Nat.lt_of_lt_of_le lt before)
    exact waitPassed moves early (goesOn j lt)
  have run := Round.withinAfter (fun j => b.later (j * settings.pollInterval.millis) j)
    steps last enough
  rw [wait,← run,Nat.zero_mul,Bench.laterStart]

theorem waitEnds {rounds : Nat} {answer : WaitAnswer ε} {c : Bench π}
    (moves : b.clock.autoAdvance = true) (ticks : 1 ≤ settings.pollInterval.millis)
    (fits : b.clock.millis.toNat + timeout.millisUp + settings.pollInterval.millis ≤ UInt64.size)
    (enough : k < rounds) (before : k ≤ polls timeout settings.pollInterval)
    (goesOn : ∀ j < k, ¬ EndsWait n b.source (j+1))
    (last : waitRound settings n timeout (Stage.now b)
      (b.later (k * settings.pollInterval.millis) k) = .done answer c) :
    wait rounds settings n timeout b = (some answer,c) :=
  waitEndsInCount moves ticks (pollFits ticks fits before) enough before goesOn last

end Rounds

theorem waitExactly {rounds : Nat} {settings : Settings} {n : UInt32} {timeout : Span}
    {b : Bench π} (moves : b.clock.autoAdvance = true) (ticks : 1 ≤ settings.pollInterval.millis)
    (fits : b.clock.millis.toNat + timeout.millisUp +
      max settings.pollInterval.millis settings.captureDelay.millis ≤ UInt64.size)
    (enough : polls timeout settings.pollInterval < rounds) :
    (∀ i, FirstEnd (EndsWait n b.source) timeout settings.pollInterval i →
      (∀ e, Source.served b.source i = .error e → ∃ c,
        wait rounds settings n timeout b = (some (.error e),c) ∧
        b.Moved ((i-1) * settings.pollInterval.millis) i c) ∧
      (∀ shown, Source.served b.source i = .ok shown → ∃ c,
        wait rounds settings n timeout b =
          (some ((Source.served b.source (i+1)).map fun text =>
            some (Snapshot.ofContent text n (b.calendar (b.captures + (i+1))))),c) ∧
        b.Moved ((i-1) * settings.pollInterval.millis + settings.captureDelay.millis) (i+1) c)) ∧
    ((¬ ∃ i, FirstEnd (EndsWait n b.source) timeout settings.pollInterval i) → ∃ c,
      wait rounds settings n timeout b = (some (.ok none),c) ∧
      b.Moved (polls timeout settings.pollInterval * settings.pollInterval.millis)
        (polls timeout settings.pollInterval) c) := by
  have pollsFit : b.clock.millis.toNat + timeout.millisUp + settings.pollInterval.millis ≤
      UInt64.size := by omega
  refine ⟨fun i first => ?_,fun none => ?_⟩
  · obtain ⟨k,rfl,before,ends,goesOn⟩ := firstEnd first
    have early := (pollEarly ticks pollsFit (Nat.le_of_lt before)).mpr before
    have millis := (pollsBefore ticks).mp before
    rw [Nat.add_sub_cancel]
    refine ⟨fun e served => ⟨_,?_,Bench.laterMoved (by omega) _⟩,
      fun shown served => ⟨_,?_,Bench.laterMoved (by omega) _⟩⟩
    · exact waitEnds moves ticks pollsFit (by omega) (by omega) goesOn (waitFailed early served)
    · exact waitEnds moves ticks pollsFit (by omega) (by omega) goesOn
        (waitShown moves early served (shownAtEnd ends served))
  · have fits := pollFits ticks pollsFit (Nat.le_refl _)
    exact ⟨_,waitEnds moves ticks pollsFit enough (Nat.le_refl _) (fun j => noFirstEnd none)
      (waitExact (.late (pollsOver ticks pollsFit))),Bench.laterMoved fits _⟩

def slowBench : Bench ScriptedPane :=
  .start (.startingAt 7) (.ofFrames [.ok "starting",.ok "[iter 3]",.ok "▶ auto"]) fun _ => .epoch

theorem waitExactlySettling :
    ∃ c, wait 4 ⟨Span.ofMillis 10,Span.ofMillis 20⟩ 2 ⟨25000001⟩ slowBench =
        (some (.ok (some (Snapshot.ofContent "▶ auto" 2 .epoch))),c) ∧
      slowBench.Moved 30 3 c := by
  have first : FirstEnd (EndsWait 2 slowBench.source) ⟨25000001⟩ (Span.ofMillis 10) 2 := by
    refine ⟨⟨by decide,by decide,.shown rfl rfl (by decide)⟩,fun i ⟨one,_,ends⟩ => ?_⟩
    by_contra further
    obtain rfl : i = 1 := by omega
    exact absurd (shownAtEnd ends rfl) (by decide)
  exact ((waitExactly rfl (by decide) (by decide) (by decide)).1 2 first).2 "[iter 3]" rfl

end PaneWatch.Watch
