import PaneWatch.Proofs.Watch.Rounds

/-! What one round of a wait can do, as a relation beside the function: the cases carry the
capture that was made and what it showed, so that later proofs follow them and never open a
round again. From there on to whole calls: what every wait keeps, and what a call returns, whatever
the number of rounds it was followed for. -/
namespace PaneWatch.Watch

variable {σ ε : Type} [Stage σ ε]

theorem reachedShown {n : UInt32} {text : String} :
    reached n text = true ↔ ∃ shown, Marker.iteration? text = some shown ∧ n ≤ shown := by
  unfold reached
  cases same : Marker.iteration? text with
  | none => simp
  | some shown => simp

inductive Settles (settings : Settings) (n : UInt32) (s : σ) : WaitAnswer ε × σ → Prop where
  | failed {e t} (capture : Stage.capture (Stage.sleep settings.captureDelay s) = (.error e,t)) :
      Settles settings n s (.error e,t)
  | shown {text t}
      (capture : Stage.capture (Stage.sleep settings.captureDelay s) = (.ok text,t)) :
      Settles settings n s (.ok (some (Snapshot.ofContent text n (Stage.timeOfDay t))),t)

theorem settleCases (settings : Settings) (n : UInt32) (s : σ) :
    Settles settings n s (settle settings n s) := by
  rcases h : Stage.capture (Stage.sleep settings.captureDelay s) with ⟨e | text,t⟩
  · simp only [settle,h]; exact .failed h
  · simp only [settle,h]; exact .shown h

theorem settleExact {settings : Settings} {n : UInt32} {s : σ} {out}
    (source : Settles settings n s out) : settle settings n s = out := by
  cases source with
  | failed capture => simp only [settle,capture]
  | shown capture => simp only [settle,capture]

inductive WaitStep (settings : Settings) (n : UInt32) (timeout start : Span) (s : σ) :
    Round σ (WaitAnswer ε) → Prop where
  | late (late : ¬ Stage.elapsedSince start s < timeout) :
      WaitStep settings n timeout start s (.done (.ok none) s)
  | failed {e t} (early : Stage.elapsedSince start s < timeout)
      (capture : Stage.capture s = (.error e,t)) :
      WaitStep settings n timeout start s (.done (.error e) t)
  | hit {text t answer u} (early : Stage.elapsedSince start s < timeout)
      (capture : Stage.capture s = (.ok text,t)) (hit : reached n text = true)
      (settles : Settles settings n t (answer,u)) :
      WaitStep settings n timeout start s (.done answer u)
  | miss {text t} (early : Stage.elapsedSince start s < timeout)
      (capture : Stage.capture s = (.ok text,t)) (miss : reached n text = false) :
      WaitStep settings n timeout start s (.again (Stage.sleep settings.pollInterval t))

theorem waitCases (settings : Settings) (n : UInt32) (timeout start : Span) (s : σ) :
    WaitStep settings n timeout start s (waitRound settings n timeout start s) := by
  unfold waitRound
  by_cases early : Stage.elapsedSince start s < timeout
  · rw [if_pos early]
    rcases h : Stage.capture s with ⟨e | text,t⟩
    · exact .failed early h
    · cases found : reached n text with
      | true => simp only [found,↓reduceIte]; exact .hit early h found (settleCases settings n t)
      | false => simp only [found,Bool.false_eq_true,↓reduceIte]; exact .miss early h found
  · rw [if_neg early]
    exact .late early

theorem waitExact {settings : Settings} {n : UInt32} {timeout start : Span} {s : σ} {round}
    (step : WaitStep settings n timeout start s round) :
    waitRound settings n timeout start s = round := by
  cases step with
  | late late => simp only [waitRound,if_neg late]
  | failed early capture => simp only [waitRound,if_pos early,capture]
  | hit early capture hit settles =>
    simp only [waitRound,if_pos early,capture,hit,↓reduceIte,settleExact settles]
  | miss early capture miss =>
    simp only [waitRound,if_pos early,capture,miss,Bool.false_eq_true,↓reduceIte]

inductive TerminationStep (timeout poll start : Span) (w : Stillness σ) :
    Round (Stillness σ) (TerminationAnswer ε) → Prop where
  | late (late : ¬ Stage.elapsedSince start w.stage < timeout) :
      TerminationStep timeout poll start w (.done (.ok (w.text,false)) w)
  | failed {e t} (early : Stage.elapsedSince start w.stage < timeout)
      (capture : Stage.capture w.stage = (.error e,t)) :
      TerminationStep timeout poll start w (.done (.error e) { w with stage := t })
  | ended {text t} (early : Stage.elapsedSince start w.stage < timeout)
      (capture : Stage.capture w.stage = (.ok text,t))
      (sign : Marker.isPrompt text = true ∨
        text = w.text ∧ Settings.requiredStableCaptures ≤ w.repeats + 1) :
      TerminationStep timeout poll start w (.done (.ok (text,true)) { w with stage := t })
  | same {text t} (early : Stage.elapsedSince start w.stage < timeout)
      (capture : Stage.capture w.stage = (.ok text,t)) (busy : Marker.isPrompt text = false)
      (same : text = w.text) (few : w.repeats + 1 < Settings.requiredStableCaptures) :
      TerminationStep timeout poll start w (.again ⟨Stage.sleep poll t,text,w.repeats + 1⟩)
  | changed {text t} (early : Stage.elapsedSince start w.stage < timeout)
      (capture : Stage.capture w.stage = (.ok text,t)) (busy : Marker.isPrompt text = false)
      (changed : text ≠ w.text) :
      TerminationStep timeout poll start w (.again ⟨Stage.sleep poll t,text,0⟩)

theorem terminationCases (timeout poll start : Span) (w : Stillness σ) :
    TerminationStep timeout poll start w (terminationRound timeout poll start w) := by
  unfold terminationRound
  by_cases early : Stage.elapsedSince start w.stage < timeout
  · rw [if_pos early]
    rcases h : Stage.capture w.stage with ⟨e | text,t⟩
    · exact .failed early h
    · cases prompt : Marker.isPrompt text with
      | true => simp only [prompt,↓reduceIte]; exact .ended early h (.inl prompt)
      | false =>
        simp only [prompt,Bool.false_eq_true,↓reduceIte]
        by_cases same : text = w.text
        · rw [if_pos same]
          by_cases enough : Settings.requiredStableCaptures ≤ w.repeats + 1
          · rw [if_pos enough]; exact .ended early h (.inr ⟨same,enough⟩)
          · rw [if_neg enough,← same]; exact .same early h prompt same (by omega)
        · rw [if_neg same]; exact .changed early h prompt same
  · rw [if_neg early]
    exact .late early

theorem terminationExact {timeout poll start : Span} {w : Stillness σ} {round}
    (step : TerminationStep timeout poll start w round) :
    terminationRound timeout poll start w = round := by
  cases step with
  | late late => simp only [terminationRound,if_neg late]
  | failed early capture => simp only [terminationRound,if_pos early,capture]
  | @ended text t early capture sign =>
    simp only [terminationRound,if_pos early,capture]
    by_cases prompt : Marker.isPrompt text = true
    · rw [if_pos prompt]
    · obtain ⟨same,enough⟩ := sign.resolve_left prompt
      rw [if_neg prompt,if_pos same,if_pos enough]
  | same early capture busy same few =>
    simp only [terminationRound,if_pos early,capture,busy,Bool.false_eq_true,↓reduceIte,
      if_neg (Nat.not_le.mpr few),← same]
  | changed early capture busy changed =>
    simp only [terminationRound,if_pos early,capture,busy,Bool.false_eq_true,↓reduceIte,
      if_neg changed]

inductive TargetRun (rounds : Nat) (settings : Settings) (timeout budget start : Span) :
    (left target : Nat) → Progress σ → Option (Except ε Recording) × Progress σ → Prop where
  | finished (target p) :
      TargetRun rounds settings timeout budget start 0 target p (some (.ok Recording.empty),p)
  | spent {left target p} (gone : budget ≤ Stage.elapsedSince start p.stage) :
      TargetRun rounds settings timeout budget start (left+1) target p (some (.ok ⟨[],none,true⟩),p)
  | pending {left target p s} (inTime : ¬ budget ≤ Stage.elapsedSince start p.stage)
      (waited : wait rounds settings (UInt32.ofNat target)
        (timeout.shorter (budget - Stage.elapsedSince start p.stage)) p.stage = (none,s)) :
      TargetRun rounds settings timeout budget start (left+1) target p (none,{ p with stage := s })
  | failed {left target p e s} (inTime : ¬ budget ≤ Stage.elapsedSince start p.stage)
      (waited : wait rounds settings (UInt32.ofNat target)
        (timeout.shorter (budget - Stage.elapsedSince start p.stage)) p.stage =
          (some (.error e),s)) :
      TargetRun rounds settings timeout budget start (left+1) target p
        (some (.error e),{ p with stage := s })
  | missed {left target p s} (inTime : ¬ budget ≤ Stage.elapsedSince start p.stage)
      (waited : wait rounds settings (UInt32.ofNat target)
        (timeout.shorter (budget - Stage.elapsedSince start p.stage)) p.stage =
          (some (.ok none),s)) :
      TargetRun rounds settings timeout budget start (left+1) target p
        (some (.ok Recording.empty),{ p with stage := s })
  | caught {left target p snapshot s out} (inTime : ¬ budget ≤ Stage.elapsedSince start p.stage)
      (waited : wait rounds settings (UInt32.ofNat target)
        (timeout.shorter (budget - Stage.elapsedSince start p.stage)) p.stage =
          (some (.ok (some snapshot)),s))
      (rest : TargetRun rounds settings timeout budget start left (target+1)
        ⟨s,some (UInt32.ofNat target)⟩ out) :
      TargetRun rounds settings timeout budget start (left+1) target p
        (out.map (Option.map (Except.map (prepend snapshot))) id)

theorem targetCases (rounds : Nat) (settings : Settings) (timeout budget start : Span)
    (left target : Nat) (p : Progress σ) :
    TargetRun rounds settings timeout budget start left target p
      (targetsFrom rounds settings timeout budget start left target p) := by
  induction left generalizing target p with
  | zero => exact .finished target p
  | succ left ih =>
    by_cases gone : budget ≤ Stage.elapsedSince start p.stage
    · simp only [targetsFrom,if_pos gone]
      exact .spent gone
    · rcases waited : wait rounds settings (UInt32.ofNat target)
        (timeout.shorter (budget - Stage.elapsedSince start p.stage)) p.stage with
          ⟨_ | e | _ | snapshot,s⟩ <;> simp only [targetsFrom,if_neg gone,waited]
      · exact .pending gone waited
      · exact .failed gone waited
      · exact .missed gone waited
      · exact .caught gone waited (ih (target+1) _)

theorem targetExact {rounds : Nat} {settings : Settings} {timeout budget start : Span}
    {left target : Nat} {p : Progress σ} {out}
    (run : TargetRun rounds settings timeout budget start left target p out) :
    targetsFrom rounds settings timeout budget start left target p = out := by
  induction run with
  | finished target p => rfl
  | spent gone => simp only [targetsFrom,if_pos gone]
  | pending inTime waited => simp only [targetsFrom,if_neg inTime,waited]
  | failed inTime waited => simp only [targetsFrom,if_neg inTime,waited]
  | missed inTime waited => simp only [targetsFrom,if_neg inTime,waited]
  | caught inTime waited rest ih => simp only [targetsFrom,if_neg inTime,waited,ih]

theorem sequenceRun {rounds : Nat} {settings : Settings} {lastTarget : UInt32}
    {timeout budget : Span} {p : Progress σ} {out}
    (run : sequence rounds settings lastTarget timeout budget p = out) :
    TargetRun rounds settings timeout budget (Stage.now p.stage) lastTarget.toNat 1 p out :=
  run ▸ targetCases rounds settings timeout budget (Stage.now p.stage) lastTarget.toNat 1 p

/- What neither a capture nor a sleep can undo holds at the end of every wait, however long the
wait was followed. Read backwards: what fails at the end failed all the way. -/
structure Kept (Q : σ → Prop) : Prop where
  capture {s : σ} : Q s → Q (Stage.capture s).2
  sleep {s : σ} (d : Span) : Q s → Q (Stage.sleep d s)

namespace Kept

variable {Q : σ → Prop} (kept : Kept Q)

include kept

theorem captured {s t outcome} (capture : Stage.capture s = (outcome,t)) (before : Q s) : Q t := by
  simpa only [capture] using kept.capture before

theorem settles {settings : Settings} {n : UInt32} {s : σ} {out}
    (step : Settles settings n s out) (before : Q s) : Q out.2 := by
  have slept := kept.sleep settings.captureDelay before
  cases step with
  | failed capture => exact kept.captured capture slept
  | shown capture => exact kept.captured capture slept

theorem waitRound (settings : Settings) (n : UInt32) (timeout start : Span) (s : σ)
    (before : Q s) : Q (waitRound settings n timeout start s).left := by
  have step := waitCases settings n timeout start s
  generalize Watch.waitRound settings n timeout start s = round at step
  cases step with
  | late late => exact before
  | failed early capture => exact kept.captured capture before
  | hit early capture hit settles => exact kept.settles settles (kept.captured capture before)
  | miss early capture miss =>
    exact kept.sleep settings.pollInterval (kept.captured capture before)

theorem wait (rounds : Nat) (settings : Settings) (n : UInt32) (timeout : Span) {s : σ}
    (before : Q s) : Q (wait rounds settings n timeout s).2 :=
  Round.withinKeeps (kept.waitRound settings n timeout (Stage.now s)) rounds before

theorem waited {rounds : Nat} {settings : Settings} {n : UInt32} {timeout : Span} {s t answer}
    (waited : Watch.wait rounds settings n timeout s = (answer,t)) (before : Q s) : Q t := by
  simpa only [waited] using kept.wait rounds settings n timeout before

theorem terminationRound (timeout poll start : Span) (w : Stillness σ) (before : Q w.stage) :
    Q (terminationRound timeout poll start w).left.stage := by
  have step := terminationCases timeout poll start w
  generalize Watch.terminationRound timeout poll start w = round at step
  cases step with
  | late late => exact before
  | failed early capture => exact kept.captured capture before
  | ended early capture sign => exact kept.captured capture before
  | same early capture busy same few => exact kept.sleep poll (kept.captured capture before)
  | changed early capture busy changed => exact kept.sleep poll (kept.captured capture before)

theorem termination (rounds : Nat) (timeout poll : Span) {s : σ} (before : Q s) :
    Q (termination rounds timeout poll s).2 :=
  Round.withinKeeps (Q := fun w : Stillness σ => Q w.stage)
    (kept.terminationRound timeout poll (Stage.now s)) rounds before

theorem targetRun {rounds : Nat} {settings : Settings} {timeout budget start : Span}
    {left target : Nat} {p : Progress σ} {out}
    (run : TargetRun rounds settings timeout budget start left target p out)
    (before : Q p.stage) : Q out.2.stage := by
  induction run with
  | finished target p => exact before
  | spent gone => exact before
  | pending inTime waited => exact kept.waited waited before
  | failed inTime waited => exact kept.waited waited before
  | missed inTime waited => exact kept.waited waited before
  | caught inTime waited rest ih => exact ih (kept.waited waited before)

theorem sequence (rounds : Nat) (settings : Settings) (lastTarget : UInt32)
    (timeout budget : Span) {p : Progress σ} (before : Q p.stage) :
    Q (sequence rounds settings lastTarget timeout budget p).2.stage :=
  kept.targetRun (targetCases rounds settings timeout budget (Stage.now p.stage) _ 1 p) before

end Kept

section Returns

variable {α β γ δ : Type}

theorem answeredBoth {view : α → δ} {x y : Option α}
    (same : x.map view = y.map view) : x.isSome = y.isSome := by
  rw [← Option.isSome_map (f := view),same,Option.isSome_map]

def Returns (call : Nat → Option α × β) (answer : α) (last : β) : Prop :=
  ∃ rounds, call rounds = (some answer,last)

def Lasting (call : Nat → Option α × β) : Prop :=
  ∀ rounds more answer last, call rounds = (some answer,last) → rounds ≤ more →
    call more = (some answer,last)

theorem Lasting.answered {call : Nat → Option α × β} (lasting : Lasting call) {rounds more : Nat}
    (answered : (call rounds).1.isSome = true) (le : rounds ≤ more) :
    call more = call rounds := by
  rcases done : call rounds with ⟨_ | answer,last⟩ <;> rw [done] at answered
  · cases answered
  · exact lasting rounds more answer last done le

theorem Lasting.through {call : Nat → Option α × β} (lasting : Lasting call)
    (next : Option α × β → Option γ × δ) (pending : ∀ s, (next (none,s)).1 = none) :
    Lasting fun rounds => next (call rounds) := by
  intro rounds more answer last returned le
  dsimp only at returned ⊢
  rcases done : call rounds with ⟨_ | own,s⟩ <;> rw [done] at returned
  · have none := pending s
    rw [returned] at none
    cases none
  · rw [lasting rounds more own s done le]
    exact returned

theorem Lasting.once {call : Nat → Option α × β} (lasting : Lasting call) {a b : α} {s t : β}
    (one : Returns call a s) (other : Returns call b t) : a = b ∧ s = t := by
  obtain ⟨n,first⟩ := one
  obtain ⟨m,second⟩ := other
  have same := (lasting n (max n m) a s first (Nat.le_max_left n m)).symm.trans
    (lasting m (max n m) b t second (Nat.le_max_right n m))
  cases same
  exact ⟨rfl,rfl⟩

theorem roundsLast (round : σ → Round σ α) (s : σ) :
    Lasting fun rounds => Round.within round rounds s :=
  fun _ _ _ _ returned le => Round.moreRounds returned le

theorem waitLasts (settings : Settings) (n : UInt32) (timeout : Span) (s : σ) :
    Lasting fun rounds => wait rounds settings n timeout s :=
  roundsLast (waitRound settings n timeout (Stage.now s)) s

theorem terminationLasts (timeout poll : Span) (s : σ) :
    Lasting fun rounds => termination rounds timeout poll s :=
  (roundsLast (terminationRound timeout poll (Stage.now s)) ⟨s,"",0⟩).through _ fun _ => rfl

theorem processExitLasts (timeout poll : Span) (s : σ) :
    Lasting fun rounds => processExit rounds timeout poll s :=
  (terminationLasts timeout poll s).through _ fun _ => rfl

theorem targetsLast {rounds more : Nat} {settings : Settings} {timeout budget start : Span}
    {left target : Nat} {p : Progress σ} {out}
    (run : TargetRun rounds settings timeout budget start left target p out) (le : rounds ≤ more)
    (returned : out.1.isSome = true) :
    TargetRun more settings timeout budget start left target p out := by
  induction run with
  | finished target p => exact .finished target p
  | spent gone => exact .spent gone
  | pending inTime waited => cases returned
  | failed inTime waited =>
    exact .failed inTime (waitLasts _ _ _ _ rounds more _ _ waited le)
  | missed inTime waited =>
    exact .missed inTime (waitLasts _ _ _ _ rounds more _ _ waited le)
  | caught inTime waited rest ih =>
    rw [Prod.map_fst,Option.isSome_map] at returned
    exact .caught inTime (waitLasts _ _ _ _ rounds more _ _ waited le) (ih returned)

theorem sequenceLasts (settings : Settings) (lastTarget : UInt32) (timeout budget : Span)
    (p : Progress σ) :
    Lasting fun rounds => sequence rounds settings lastTarget timeout budget p := by
  intro rounds more answer last returned le
  exact targetExact (targetsLast (sequenceRun returned) le rfl)

end Returns

end PaneWatch.Watch
