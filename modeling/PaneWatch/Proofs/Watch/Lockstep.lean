import PaneWatch.Proofs.Watch.Steps
import PaneWatch.Session

/-! Two stages in lockstep: whatever a wait can observe of them is the same, so every wait does
the same on both. The stages may differ in their readings of the clock, as long as they agree
on the time passed between any two, and in the time of day, of which only `date` counts. The
agreement may end where the second stage is `Lost`; once lost it stays lost. Scenes that differ in
their time of day alone are in lockstep all the way. -/
namespace PaneWatch

def Snapshot.redated (date : Timestamp → Timestamp) (s : Snapshot) : Snapshot :=
  { s with capturedAt := date s.capturedAt }

def Recording.redated (date : Timestamp → Timestamp) (r : Recording) : Recording :=
  { r with snapshots := r.snapshots.map (Snapshot.redated date) }

namespace Watch

variable {σ τ ε : Type} [Stage σ ε] [Stage τ ε]

structure Lockstep (Same : Span → Span → Prop) (naps : Span → Prop)
    (date : Timestamp → Timestamp) (Lost : τ → Prop) (R : σ → τ → Prop) : Prop where
  reading {s t} : R s t → Same (Stage.now s) (Stage.now t)
  passed {a b c d} : Same a b → Same c d → c - a = d - b
  capture {s t} : R s t → (Stage.capture s).1 = (Stage.capture t).1 ∧
    R (Stage.capture s).2 (Stage.capture t).2
  sleep {s t d} : naps d → R s t → ¬ Lost (Stage.sleep d t) →
    R (Stage.sleep d s) (Stage.sleep d t)
  dated {s t} : R s t → date (Stage.timeOfDay s) = date (Stage.timeOfDay t)
  lost : Kept Lost

def Progress.map (view : σ → τ) (p : Progress σ) : Progress τ := ⟨view p.stage,p.lastIteration⟩

def answerDated (date : Timestamp → Timestamp) : WaitAnswer ε → WaitAnswer ε :=
  Except.map (Option.map (Snapshot.redated date))

theorem prependDated (date : Timestamp → Timestamp) (snapshot : Snapshot)
    (answer : Option (Except ε Recording)) :
    (answer.map (Except.map (prepend snapshot))).map (Except.map (Recording.redated date)) =
      (answer.map (Except.map (Recording.redated date))).map
        (Except.map (prepend (snapshot.redated date))) := by
  rcases answer with _ | e | r <;> rfl

/- Every stage is in lockstep with what `view` takes it to, all the way. -/
abbrev Along (date : Timestamp → Timestamp) (view : σ → τ) : Prop :=
  Lockstep Eq (fun _ => True) date (fun _ : τ => False) fun s t => view s = t

namespace Lockstep

theorem along {date : Timestamp → Timestamp} (view : σ → τ)
    (reading : ∀ s, Stage.now (view s) = Stage.now s)
    (capture : ∀ s, Stage.capture (view s) = (Stage.capture s).map id view)
    (sleep : ∀ d s, Stage.sleep d (view s) = view (Stage.sleep d s))
    (dated : ∀ s, date (Stage.timeOfDay (view s)) = date (Stage.timeOfDay s)) :
    Along date view where
  reading := by rintro s t rfl; exact (reading s).symm
  passed := by rintro a b c d rfl rfl; rfl
  capture := by rintro s t rfl; rw [capture]; exact ⟨rfl,rfl⟩
  sleep := by rintro s t d _ rfl _; exact (sleep d s).symm
  dated := by rintro s t rfl; exact (dated s).symm
  lost := ⟨fun h => h,fun _ h => h⟩

variable {Same : Span → Span → Prop} {naps : Span → Prop} {date : Timestamp → Timestamp}
  {Lost : τ → Prop} {R : σ → τ → Prop} (law : Lockstep Same naps date Lost R)

include law

theorem elapsed {s t start start'} (began : Same start start') (together : R s t) :
    Stage.elapsedSince start s = Stage.elapsedSince start' t :=
  law.passed began (law.reading together)

theorem captured {s t outcome t'} (together : R s t) (capture : Stage.capture t = (outcome,t')) :
    ∃ s', Stage.capture s = (outcome,s') ∧ R s' t' := by
  obtain ⟨same,after⟩ := law.capture together
  rw [capture] at same after
  exact ⟨(Stage.capture s).2,Prod.ext same rfl,after⟩

theorem settles {settings : Settings} {n : UInt32} {s t out} (nap : naps settings.captureDelay)
    (together : R s t) (step : Settles settings n t out) (alive : ¬ Lost out.2) :
    ∃ own, Settles settings n s own ∧ answerDated date own.1 = answerDated date out.1 ∧
      R own.2 out.2 := by
  cases step with
  | failed capture =>
    have slept := law.sleep nap together fun h => alive (law.lost.captured capture h)
    obtain ⟨s',same,after⟩ := law.captured slept capture
    exact ⟨_,.failed same,rfl,after⟩
  | shown capture =>
    have slept := law.sleep nap together fun h => alive (law.lost.captured capture h)
    obtain ⟨s',same,after⟩ := law.captured slept capture
    refine ⟨_,.shown same,?_,after⟩
    simp only [answerDated,Except.map,Option.map_some,Snapshot.redated,Snapshot.ofContent,
      law.dated after]

theorem waitRound {settings : Settings} {n : UInt32} {timeout start start' : Span} {s t}
    (poll : naps settings.pollInterval) (delay : naps settings.captureDelay)
    (began : Same start start') (together : R s t)
    (alive : ¬ Lost (waitRound settings n timeout start' t).left) :
    Round.Agree R (answerDated date) (waitRound settings n timeout start s)
      (waitRound settings n timeout start' t) := by
  have clock := law.elapsed began together
  have step := waitCases settings n timeout start' t
  generalize Watch.waitRound settings n timeout start' t = round at step alive ⊢
  cases step with
  | late late => rw [waitExact (.late (clock ▸ late))]; exact .done rfl together
  | failed early capture =>
    obtain ⟨s',same,after⟩ := law.captured together capture
    rw [waitExact (.failed (clock ▸ early) same)]
    exact .done rfl after
  | hit early capture hit settles =>
    obtain ⟨s',same,after⟩ := law.captured together capture
    obtain ⟨⟨answer,u⟩,own,answers,rest⟩ := law.settles delay after settles alive
    rw [waitExact (.hit (clock ▸ early) same hit own)]
    exact .done answers rest
  | miss early capture miss =>
    obtain ⟨s',same,after⟩ := law.captured together capture
    rw [waitExact (.miss (clock ▸ early) same miss)]
    exact .again (law.sleep poll after alive)

theorem wait (rounds : Nat) {settings : Settings} (n : UInt32) (timeout : Span) {s t}
    (poll : naps settings.pollInterval) (delay : naps settings.captureDelay)
    (together : R s t) (alive : ¬ Lost (wait rounds settings n timeout t).2) :
    (wait rounds settings n timeout s).1.map (answerDated date) =
        (wait rounds settings n timeout t).1.map (answerDated date) ∧
      R (wait rounds settings n timeout s).2 (wait rounds settings n timeout t).2 :=
  Round.withinAgree (law.lost.waitRound settings n timeout (Stage.now t))
    (fun _ _ => law.waitRound poll delay (law.reading together)) rounds together alive

theorem waited {rounds : Nat} {settings : Settings} {n : UInt32} {timeout : Span} {s t answer t'}
    (poll : naps settings.pollInterval) (delay : naps settings.captureDelay) (together : R s t)
    (waited : Watch.wait rounds settings n timeout t = (answer,t')) (alive : ¬ Lost t') :
    ∃ own s', Watch.wait rounds settings n timeout s = (own,s') ∧
      own.map (answerDated date) = answer.map (answerDated date) ∧ R s' t' := by
  have both := law.wait rounds n timeout poll delay together
  rw [waited] at both
  exact ⟨_,_,rfl,both alive⟩

def Beside (R : σ → τ → Prop) (p : Progress σ) (q : Progress τ) : Prop :=
  R p.stage q.stage ∧ p.lastIteration = q.lastIteration

theorem targets {rounds : Nat} {settings : Settings} {timeout budget start start' : Span}
    {left target : Nat} {p : Progress σ} {q : Progress τ} {out}
    (poll : naps settings.pollInterval) (delay : naps settings.captureDelay)
    (began : Same start start')
    (run : TargetRun rounds settings timeout budget start' left target q out)
    (together : Beside R p q) (alive : ¬ Lost out.2.stage) :
    ∃ own, TargetRun rounds settings timeout budget start left target p own ∧
      own.1.map (Except.map (Recording.redated date)) =
        out.1.map (Except.map (Recording.redated date)) ∧ Beside R own.2 out.2 := by
  induction run generalizing p with
  | finished target q => exact ⟨_,.finished target p,rfl,together⟩
  | spent gone =>
    exact ⟨_,.spent (law.elapsed began together.1 ▸ gone),rfl,together⟩
  | pending inTime waited =>
    rw [← law.elapsed began together.1] at inTime waited
    obtain ⟨own,s',same,answers,after⟩ := law.waited poll delay together.1 waited alive
    rcases own with _ | e | _ | snapshot <;> simp [answerDated,Except.map] at answers
    exact ⟨_,.pending inTime same,rfl,after,together.2⟩
  | failed inTime waited =>
    rw [← law.elapsed began together.1] at inTime waited
    obtain ⟨own,s',same,answers,after⟩ := law.waited poll delay together.1 waited alive
    rcases own with _ | e | _ | snapshot <;> simp [answerDated,Except.map] at answers
    subst e
    exact ⟨_,.failed inTime same,rfl,after,together.2⟩
  | missed inTime waited =>
    rw [← law.elapsed began together.1] at inTime waited
    obtain ⟨own,s',same,answers,after⟩ := law.waited poll delay together.1 waited alive
    rcases own with _ | e | _ | snapshot <;> simp [answerDated,Except.map] at answers
    exact ⟨_,.missed inTime same,rfl,after,together.2⟩
  | @caught left target q snapshot t out inTime waited rest ih =>
    rw [← law.elapsed began together.1] at inTime waited
    have found : ¬ Lost t := by
      intro gone
      have ends : Lost out.2.stage := law.lost.targetRun rest gone
      exact alive ends
    obtain ⟨own,s',same,answers,after⟩ := law.waited poll delay together.1 waited found
    rcases own with _ | e | _ | seen <;> simp [answerDated,Except.map] at answers
    obtain ⟨recorded,run,records,ends⟩ := ih (p := ⟨s',_⟩) ⟨after,rfl⟩ alive
    refine ⟨_,.caught inTime same run,?_,ends⟩
    calc
      _ = (recorded.1.map (Except.map (Recording.redated date))).map
            (Except.map (prepend (seen.redated date))) := prependDated date seen recorded.1
      _ = (out.1.map (Except.map (Recording.redated date))).map
            (Except.map (prepend (snapshot.redated date))) := by rw [records,answers]
      _ = _ := (prependDated date snapshot out.1).symm

theorem sequence (rounds : Nat) {settings : Settings} (lastTarget : UInt32)
    (timeout budget : Span) {p : Progress σ} {q : Progress τ}
    (poll : naps settings.pollInterval) (delay : naps settings.captureDelay)
    (together : Beside R p q)
    (alive : ¬ Lost (sequence rounds settings lastTarget timeout budget q).2.stage) :
    (sequence rounds settings lastTarget timeout budget p).1.map
          (Except.map (Recording.redated date)) =
        (sequence rounds settings lastTarget timeout budget q).1.map
          (Except.map (Recording.redated date)) ∧
      Beside R (sequence rounds settings lastTarget timeout budget p).2
        (sequence rounds settings lastTarget timeout budget q).2 := by
  obtain ⟨own,run,answers,after⟩ := law.targets poll delay (law.reading together.1)
    (targetCases rounds settings timeout budget (Stage.now q.stage) lastTarget.toNat 1 q)
    together alive
  have same : Watch.sequence rounds settings lastTarget timeout budget p = own := targetExact run
  rw [same]
  exact ⟨answers,after⟩

def Still (R : σ → τ → Prop) (v : Stillness σ) (w : Stillness τ) : Prop :=
  R v.stage w.stage ∧ v.text = w.text ∧ v.repeats = w.repeats

theorem terminationRound {timeout poll start start' : Span} {v : Stillness σ} {w : Stillness τ}
    (nap : naps poll) (began : Same start start') (together : Still R v w)
    (alive : ¬ Lost (terminationRound timeout poll start' w).left.stage) :
    Round.Agree (Still R) id (terminationRound timeout poll start v)
      (terminationRound timeout poll start' w) := by
  obtain ⟨stages,texts,counts⟩ := together
  have clock := law.elapsed began stages
  have step := terminationCases timeout poll start' w
  generalize Watch.terminationRound timeout poll start' w = round at step alive ⊢
  cases step with
  | late late =>
    rw [terminationExact (.late (clock ▸ late)),texts]
    exact .done rfl ⟨stages,texts,counts⟩
  | failed early capture =>
    obtain ⟨s',same,after⟩ := law.captured stages capture
    rw [terminationExact (.failed (clock ▸ early) same)]
    exact .done rfl ⟨after,texts,counts⟩
  | ended early capture sign =>
    obtain ⟨s',same,after⟩ := law.captured stages capture
    rw [← texts,← counts] at sign
    rw [terminationExact (.ended (clock ▸ early) same sign)]
    exact .done rfl ⟨after,texts,counts⟩
  | same early capture busy still few =>
    obtain ⟨s',same,after⟩ := law.captured stages capture
    rw [terminationExact (.same (clock ▸ early) same busy (still.trans texts.symm)
      (counts ▸ few))]
    exact .again ⟨law.sleep nap after alive,rfl,by rw [counts]⟩
  | changed early capture busy changed =>
    obtain ⟨s',same,after⟩ := law.captured stages capture
    rw [terminationExact (.changed (clock ▸ early) same busy (texts ▸ changed))]
    exact .again ⟨law.sleep nap after alive,rfl,rfl⟩

theorem termination (rounds : Nat) (timeout : Span) {poll : Span} {s t} (nap : naps poll)
    (together : R s t) (alive : ¬ Lost (termination rounds timeout poll t).2) :
    (termination rounds timeout poll s).1 = (termination rounds timeout poll t).1 ∧
      R (termination rounds timeout poll s).2 (termination rounds timeout poll t).2 := by
  obtain ⟨answers,rest⟩ := Round.withinAgree
    (law.lost.terminationRound timeout poll (Stage.now t))
    (fun _ _ => law.terminationRound nap (law.reading together)) rounds
    (s := ⟨s,"",0⟩) ⟨together,rfl,rfl⟩ alive
  rw [Option.map_id_fun,id_eq,id_eq] at answers
  exact ⟨answers,rest.1⟩

theorem processExit (rounds : Nat) (timeout : Span) {poll : Span} {s t} (nap : naps poll)
    (together : R s t) (alive : ¬ Lost (processExit rounds timeout poll t).2) :
    (processExit rounds timeout poll s).1 = (processExit rounds timeout poll t).1 ∧
      R (processExit rounds timeout poll s).2 (processExit rounds timeout poll t).2 := by
  obtain ⟨answers,rest⟩ := law.termination rounds timeout nap together alive
  exact ⟨congrArg (Option.map (Except.map Prod.swap)) answers,rest⟩

end Lockstep

namespace Lockstep

variable {date : Timestamp → Timestamp} {view : σ → τ}
  (law : Along date view)

include law

theorem waitAlong (rounds : Nat) (settings : Settings) (n : UInt32) (timeout : Span) (s : σ) :
    (Watch.wait rounds settings n timeout s).1.map (answerDated date) =
        (Watch.wait rounds settings n timeout (view s)).1.map (answerDated date) ∧
      view (Watch.wait rounds settings n timeout s).2 =
        (Watch.wait rounds settings n timeout (view s)).2 :=
  law.wait rounds n timeout trivial trivial rfl id

theorem sequenceAlong (rounds : Nat) (settings : Settings) (lastTarget : UInt32)
    (timeout budget : Span) (p : Progress σ) :
    (Watch.sequence rounds settings lastTarget timeout budget p).1.map
          (Except.map (Recording.redated date)) =
        (Watch.sequence rounds settings lastTarget timeout budget (p.map view)).1.map
          (Except.map (Recording.redated date)) ∧
      (Watch.sequence rounds settings lastTarget timeout budget p).2.map view =
        (Watch.sequence rounds settings lastTarget timeout budget (p.map view)).2 := by
  have beside : Beside (fun s t => view s = t) p (p.map view) := ⟨rfl,rfl⟩
  obtain ⟨answers,stages,targets⟩ :=
    law.sequence rounds lastTarget timeout budget trivial trivial beside id
  refine ⟨answers,?_⟩
  rw [Progress.map,stages,targets]

theorem terminationAlong (rounds : Nat) (timeout poll : Span) (s : σ) :
    (Watch.termination rounds timeout poll s).map id view =
      Watch.termination rounds timeout poll (view s) := by
  have both : (Watch.termination rounds timeout poll s).1 =
        (Watch.termination rounds timeout poll (view s)).1 ∧
      view (Watch.termination rounds timeout poll s).2 =
        (Watch.termination rounds timeout poll (view s)).2 :=
    law.termination rounds timeout trivial rfl id
  exact Prod.ext both.1 both.2

theorem processExitAlong (rounds : Nat) (timeout poll : Span) (s : σ) :
    (Watch.processExit rounds timeout poll s).map id view =
      Watch.processExit rounds timeout poll (view s) := by
  rw [Watch.processExit,Watch.processExit,← law.terminationAlong]
  rfl

end Lockstep
end Watch

namespace Scene

theorem deliverNothing {s : Scene} (quiet : s.timeline = []) : s.deliver = s := by
  obtain ⟨clock,pane,timeline,calendar⟩ := s
  subst quiet
  simp only [deliver,ScriptedPane.append,List.takeWhile_nil,List.map_nil,List.append_nil,
    List.length_nil,List.drop_nil]

theorem startQuiet (clock : Clock) (pane : ScriptedPane) (calendar : Nat → Timestamp) :
    start clock pane [] calendar = ⟨clock,pane,[],calendar⟩ := by
  unfold start
  rw [List.mergeSort_nil]
  exact deliverNothing rfl

def undated : Timestamp → Timestamp := fun _ => Timestamp.epoch

def dated (calendar : Nat → Timestamp) (s : Scene) : Scene := { s with calendar := calendar }

theorem datedLockstep (calendar : Nat → Timestamp) :
    Watch.Along undated (dated calendar) :=
  .along (dated calendar) (fun _ => rfl) (fun _ => rfl) (fun _ _ => rfl) (fun _ => rfl)

end Scene
end PaneWatch
