import Mathlib.Logic.Function.Iterate
import PaneWatch.Proofs.Pane.Queue
import PaneWatch.Proofs.Watch.Lockstep

/-! Waiting for the end of a program on a script that nobody adds to. The frames are used up
one by one, and then the last text is served again and again, so the pane stands still in the
end. The wait returns whatever the clock does, be it that it never moves. -/
namespace PaneWatch

def Clock.Frozen : Clock → Prop
  | .fake c => c.autoAdvance = false
  | .system _ => False

theorem Clock.frozenSleep {c : Clock} (frozen : c.Frozen) (d : Span) : c.sleep d = c := by
  cases c with
  | fake c => simp only [sleep,FakeClock.sleep,show c.autoAdvance = false from frozen,
      Bool.false_eq_true,↓reduceIte]
  | system c => cases frozen

namespace Scene

variable {s t : Scene}

theorem captureAsks (s : Scene) :
    Stage.capture s = (s.pane.capture.1,{ s with pane := s.pane.capture.2 }) := rfl

theorem shownFrame {text : String} (capture : Stage.capture s = (.ok text,t)) :
    t = { s with pane := ⟨s.pane.frames.tail,text,s.pane.captures + 1⟩ } ∧
      (s.pane.frames = [] ∧ text = s.pane.last ∨ ∃ rest, s.pane.frames = .ok text::rest) := by
  rw [captureAsks] at capture
  rcases s.pane.captureCases with ⟨none,served⟩ | ⟨frame,rest,some,served⟩ <;>
    rw [served] at capture <;> cases capture
  · rw [none]
    exact ⟨rfl,.inl ⟨rfl,rfl⟩⟩
  · rw [some]
    exact ⟨rfl,.inr ⟨rest,rfl⟩⟩

theorem failedFrame {e : CaptureFailure} (capture : Stage.capture s = (.error e,t)) :
    ∃ rest, s.pane.frames = .error e::rest := by
  rw [captureAsks] at capture
  rcases s.pane.captureCases with ⟨none,served⟩ | ⟨frame,rest,some,served⟩ <;>
    rw [served] at capture <;> cases capture
  exact ⟨rest,some⟩

theorem capturesOnce {outcome} (capture : Stage.capture s = (outcome,t)) :
    t.pane.captures = s.pane.captures + 1 := by
  rw [captureAsks] at capture
  rcases s.pane.captureCases with ⟨none,served⟩ | ⟨frame,rest,some,served⟩ <;>
    rw [served] at capture <;> cases capture <;> rfl

end Scene

namespace Watch

variable {timeout poll start : Span} {w next : Stillness Scene}

theorem playedOn (quiet : w.stage.timeline = [])
    (again : terminationRound timeout poll start w = .again next) :
    next.stage = { w.stage with
        clock := w.stage.clock.sleep poll
        pane := ⟨w.stage.pane.frames.tail,next.text,w.stage.pane.captures + 1⟩ } ∧
      (w.stage.pane.frames = [] ∧ next.text = w.stage.pane.last ∨
        ∃ rest, w.stage.pane.frames = .ok next.text::rest) ∧
      (next.text = w.text →
        next.repeats = w.repeats + 1 ∧ next.repeats < Settings.requiredStableCaptures) := by
  have step := terminationCases timeout poll start w
  rw [again] at step
  cases step with
  | same early capture busy same few =>
    obtain ⟨rfl,frames⟩ := Scene.shownFrame capture
    exact ⟨Scene.deliverNothing quiet,frames,fun _ => ⟨rfl,few⟩⟩
  | changed early capture busy changed =>
    obtain ⟨rfl,frames⟩ := Scene.shownFrame capture
    exact ⟨Scene.deliverNothing quiet,frames,fun same => absurd same changed⟩

/- How many more rounds can go on: one for each frame that is left but the last, and three on a
pane that shows nothing new, the first of which may still change the text remembered. -/
def roundsLeft (w : Stillness Scene) : Nat :=
  if w.stage.pane.remaining = 0 ∧ w.text = w.stage.pane.last then 2 - w.repeats
  else max w.stage.pane.remaining 1 + 2

theorem roundsFall (quiet : w.stage.timeline = [])
    (again : terminationRound timeout poll start w = .again next) :
    next.stage.timeline = [] ∧ roundsLeft next < roundsLeft w := by
  obtain ⟨stage,frames,repeats⟩ := playedOn quiet again
  refine ⟨by rw [stage]; exact quiet,?_⟩
  have shown : next.text = next.stage.pane.last := by rw [stage]
  have few : roundsLeft next ≤ next.stage.pane.remaining + 2 := by
    unfold roundsLeft
    by_cases used : next.stage.pane.remaining = 0
    · rw [if_pos ⟨used,shown⟩]
      omega
    · rw [if_neg fun both => used both.1]
      omega
  rcases frames with ⟨none,last⟩ | ⟨rest,some⟩
  · have nothing : w.stage.pane.remaining = 0 := by rw [ScriptedPane.remaining,none]; rfl
    have used : next.stage.pane.remaining = 0 := by rw [stage,ScriptedPane.remaining,none]; rfl
    by_cases same : w.text = w.stage.pane.last
    · obtain ⟨count,below⟩ := repeats (last.trans same.symm)
      rw [roundsLeft,roundsLeft,if_pos ⟨used,shown⟩,if_pos ⟨nothing,same⟩,count]
      rw [count,Settings.requiredStableCaptures] at below
      omega
    · rw [roundsLeft.eq_def w,if_neg fun both => same both.2]
      omega
  · have count : w.stage.pane.remaining = next.stage.pane.remaining + 1 := by
      rw [stage,ScriptedPane.remaining,ScriptedPane.remaining,some]
      rfl
    rw [roundsLeft.eq_def w,if_neg fun both => by omega]
    omega

theorem capturedOnce (timeout poll start : Span) (w : Stillness Scene) :
    (terminationRound timeout poll start w).left.stage.pane.captures ≤
      w.stage.pane.captures + 1 := by
  have step := terminationCases timeout poll start w
  generalize terminationRound timeout poll start w = round at step
  cases step with
  | late late => exact Nat.le_succ _
  | failed early capture => exact Nat.le_of_eq (Scene.capturesOnce capture)
  | ended early capture sign => exact Nat.le_of_eq (Scene.capturesOnce capture)
  | same early capture busy same few =>
    have once := Scene.capturesOnce capture
    exact Nat.le_of_eq once
  | changed early capture busy changed =>
    have once := Scene.capturesOnce capture
    exact Nat.le_of_eq once

/- An answer that was not given for want of time: the end was seen, or the script failed. -/
inductive Conclusive (frames : List Frame) : TerminationAnswer CaptureFailure → Prop where
  | ended (text) : Conclusive frames (.ok (text,true))
  | failed (texts : List String) {e rest} (first : frames = texts.map .ok ++ .error e::rest) :
      Conclusive frames (.error e)

theorem conclusiveLater {text : String} {frames : List Frame} {answer}
    (conclusive : Conclusive frames answer) : Conclusive (.ok text::frames) answer := by
  cases conclusive with
  | ended shown => exact .ended shown
  | @failed texts e rest first => exact .failed (text::texts) (by rw [first]; rfl)

theorem concluded {n : Nat} {answer last} (quiet : w.stage.timeline = [])
    (returned : Round.within (terminationRound timeout poll start) n w = (some answer,last)) :
    Conclusive w.stage.pane.frames answer ∨
      ∃ k < n, ¬ ((Clock.sleep poll)^[k] w.stage.clock).now - start < timeout := by
  induction n generalizing w with
  | zero => simp [Round.within] at returned
  | succ n ih =>
    have step := terminationCases timeout poll start w
    generalize round : terminationRound timeout poll start w = outcome at step
    cases outcome with
    | done a t =>
      rw [Round.withinDone round] at returned
      cases returned
      cases step with
      | late late => exact .inr ⟨0,Nat.zero_lt_succ n,late⟩
      | ended early capture sign => exact .inl (.ended _)
      | failed early capture =>
        obtain ⟨rest,frames⟩ := Scene.failedFrame capture
        exact .inl (.failed [] frames)
    | again next =>
      obtain ⟨stage,frames,_⟩ := playedOn quiet round
      rw [Round.withinAgain round] at returned
      have rest := ih (by rw [stage]; exact quiet) returned
      rw [stage] at rest
      rcases rest with conclusive | ⟨k,lt,late⟩
      · refine .inl ?_
        rcases frames with ⟨none,_⟩ | ⟨rest,some⟩
        · rwa [none] at conclusive ⊢
        · rw [some] at conclusive ⊢
          exact conclusiveLater conclusive
      · exact .inr ⟨k+1,Nat.succ_lt_succ lt,late⟩

theorem terminationReturns {s : Scene} (quiet : s.timeline = []) (timeout poll : Span) :
    ∃ answer t, Returns (fun rounds => termination rounds timeout poll s) answer t ∧
      t.pane.captures ≤ s.pane.captures + (max s.pane.remaining 1 + 3) ∧
      ((∀ k < max s.pane.remaining 1 + 3,
          ((Clock.sleep poll)^[k] s.clock).now - s.clock.now < timeout) →
        Conclusive s.pane.frames answer) ∧
      (s.clock.Frozen → Span.zero < timeout → Conclusive s.pane.frames answer) := by
  have few : roundsLeft ⟨s,"",0⟩ < max s.pane.remaining 1 + 3 := by
    unfold roundsLeft
    dsimp only
    split <;> omega
  have falls : ∀ w next : Stillness Scene, w.stage.timeline = [] →
      terminationRound timeout poll s.clock.now w = .again next →
      next.stage.timeline = [] ∧ roundsLeft next < roundsLeft w := fun w next => roundsFall
  obtain ⟨answer,last,returned⟩ := Round.withinFalls falls quiet few
  have inTime : (∀ k < max s.pane.remaining 1 + 3,
      ((Clock.sleep poll)^[k] s.clock).now - s.clock.now < timeout) →
      Conclusive s.pane.frames answer := by
    intro early
    refine (concluded quiet returned).resolve_right ?_
    rintro ⟨k,lt,late⟩
    exact late (early k lt)
  refine ⟨answer,last.stage,⟨max s.pane.remaining 1 + 3,?_⟩,?_,inTime,?_⟩
  · change (Round.within (terminationRound timeout poll s.clock.now) _ _).map id _ = _
    rw [returned]
    rfl
  · have cost := Round.withinCosts (c := fun w : Stillness Scene => w.stage.pane.captures)
      (capturedOnce timeout poll s.clock.now) (max s.pane.remaining 1 + 3) ⟨s,"",0⟩
    rwa [returned] at cost
  · intro frozen positive
    refine inTime fun k _ => ?_
    rw [Function.iterate_fixed (Clock.frozenSleep frozen poll)]
    rw [Span.lt_iff,Span.nanos_sub,Nat.sub_self]
    exact positive

def wrappingScene : Scene :=
  ⟨.fake ⟨UInt64.ofNat (UInt64.size - 1),true⟩,.ofFrames [.ok "busy",.ok "done"],[],fun _ => .epoch⟩

theorem terminationReturnsWrapped :
    ∃ answer t, Returns (fun rounds => termination rounds (Span.ofMillis 1) (Span.ofMillis 1)
        wrappingScene) answer t ∧
      t.pane.captures ≤ 5 ∧ Conclusive [.ok "busy",.ok "done"] answer := by
  obtain ⟨answer,t,returned,few,conclusive,_⟩ :=
    terminationReturns (s := wrappingScene) rfl (Span.ofMillis 1) (Span.ofMillis 1)
  exact ⟨answer,t,returned,few,conclusive (by decide)⟩

end Watch
end PaneWatch
