import PaneWatch.Proofs.Watch.Lockstep

/-! A stage that keeps a journal of its captures: what each of them gave, and the reading of
the clock right after it. Nothing else about the stage is different, so a wait on a journal is
the wait on its stage with the entries written on the way. -/
namespace PaneWatch

structure Capture (ε : Type) where
  time : Span
  outcome : Except ε String

structure Journal (σ ε : Type) where
  stage : σ
  entries : List (Capture ε)

namespace Journal

variable {σ ε : Type}

def start (s : σ) : Journal σ ε := ⟨s,[]⟩

variable [Stage σ ε]

instance : Stage (Journal σ ε) ε where
  now j := Stage.now j.stage
  sleep d j := { j with stage := Stage.sleep d j.stage }
  capture j :=
    let (outcome,s) := Stage.capture j.stage
    (outcome,⟨s,j.entries ++ [⟨Stage.now s,outcome⟩]⟩)
  timeOfDay j := Stage.timeOfDay j.stage

theorem captured {j k : Journal σ ε} {outcome} (capture : Stage.capture j = (outcome,k)) :
    k.entries = j.entries ++ [⟨Stage.now k,outcome⟩] := by
  obtain ⟨same,rfl⟩ := Prod.mk.inj capture
  rw [← same]
  rfl

theorem growing (old : List (Capture ε)) : Watch.Kept fun j : Journal σ ε => old <+: j.entries where
  capture := fun grown => grown.trans (List.prefix_append _ _)
  sleep := fun _ grown => grown

theorem lockstep : Watch.Along id (stage : Journal σ ε → σ) :=
  .along stage (fun _ => rfl) (fun _ => rfl) (fun _ _ => rfl) (fun _ => rfl)

end Journal

theorem Recording.redatedId (r : Recording) : r.redated id = r := by
  have same : Snapshot.redated id = id := rfl
  simp only [redated,same,List.map_id_fun,id_eq]

namespace Watch

variable {σ ε : Type} [Stage σ ε]

theorem waitJournaled (rounds : Nat) (settings : Settings) (n : UInt32) (timeout : Span) (s : σ) :
    ∃ entries : List (Capture ε),
      wait rounds settings n timeout (Journal.start s) =
        ((wait rounds settings n timeout s).1,⟨(wait rounds settings n timeout s).2,entries⟩) := by
  obtain ⟨answers,ends⟩ := Journal.lockstep.waitAlong rounds settings n timeout
    (Journal.start s : Journal σ ε)
  have view : (answerDated id : WaitAnswer ε → _) = id := by
    funext x
    rcases x with e | _ | snapshot <;> rfl
  rw [view,Option.map_id_fun,id_eq,id_eq] at answers
  change (wait rounds settings n timeout (Journal.start s)).1 =
    (wait rounds settings n timeout s).1 at answers
  change _ = (wait rounds settings n timeout s).2 at ends
  rw [← answers,← ends]
  exact ⟨_,rfl⟩

theorem sequenceJournaled (rounds : Nat) (settings : Settings) (lastTarget : UInt32)
    (timeout budget : Span) (p : Progress σ) :
    ∃ entries : List (Capture ε),
      sequence rounds settings lastTarget timeout budget ⟨Journal.start p.stage,p.lastIteration⟩ =
        ((sequence rounds settings lastTarget timeout budget p).1,
          ⟨⟨(sequence rounds settings lastTarget timeout budget p).2.stage,entries⟩,
            (sequence rounds settings lastTarget timeout budget p).2.lastIteration⟩) := by
  obtain ⟨answers,ends⟩ := Journal.lockstep.sequenceAlong rounds settings lastTarget timeout budget
    (⟨Journal.start p.stage,p.lastIteration⟩ : Progress (Journal σ ε))
  change _ = (sequence rounds settings lastTarget timeout budget p).1.map _ at answers
  change _ = (sequence rounds settings lastTarget timeout budget p).2 at ends
  have view : (Except.map (Recording.redated id) : Except ε Recording → _) = id := by
    funext x
    rcases x with e | r
    · rfl
    · exact congrArg Except.ok r.redatedId
  rw [view,Option.map_id_fun,id_eq,id_eq] at answers
  rw [← answers,← ends]
  exact ⟨_,rfl⟩

def Misses (n : UInt32) (e : Capture ε) : Prop :=
  ∃ text, e.outcome = .ok text ∧ reached n text = false

def Hits (n : UInt32) (e : Capture ε) : Prop :=
  ∃ text, e.outcome = .ok text ∧ reached n text = true

/- What a wait writes, by its answer; `reading` is the clock at its end. -/
inductive Written (n : UInt32) (reading : Span) :
    Option (WaitAnswer ε) → List (Capture ε) → Prop where
  | pending : Written n reading none []
  | missed : Written n reading (some (.ok none)) []
  | failed {e time} : Written n reading (some (.error e)) [⟨time,.error e⟩]
  | unsettled {hit e time} (hits : Hits n hit) :
      Written n reading (some (.error e)) [hit,⟨time,.error e⟩]
  | caught {hit text snapshot} (hits : Hits n hit)
      (shows : snapshot.toSighting = Sighting.ofContent text n) :
      Written n reading (some (.ok (some snapshot))) [hit,⟨reading,.ok text⟩]
  | poll {e answer rest} (misses : Misses n e) (tail : Written n reading answer rest) :
      Written n reading answer (e::rest)

theorem roundsWritten (settings : Settings) (n : UInt32) (timeout start : Span) (rounds : Nat)
    (j : Journal σ ε) :
    ∃ written,
      (Round.within (waitRound settings n timeout start) rounds j).2.entries =
        j.entries ++ written ∧
      Written n (Stage.now (Round.within (waitRound settings n timeout start) rounds j).2)
        (Round.within (waitRound settings n timeout start) rounds j).1 written := by
  induction rounds generalizing j with
  | zero => exact ⟨[],(List.append_nil _).symm,.pending⟩
  | succ rounds ih =>
    have step := waitCases settings n timeout start j
    generalize same : waitRound settings n timeout start j = round at step
    cases step with
    | late late =>
      rw [Round.withinDone same]
      exact ⟨[],(List.append_nil _).symm,.missed⟩
    | failed early capture =>
      rw [Round.withinDone same]
      exact ⟨_,Journal.captured capture,.failed⟩
    | @hit text t answer u early capture hit settles =>
      rw [Round.withinDone same]
      have first := Journal.captured capture
      have hits : Hits n (⟨Stage.now t,.ok text⟩ : Capture ε) := ⟨text,rfl,hit⟩
      cases settles with
      | failed capture =>
        have second := Journal.captured capture
        refine ⟨[⟨Stage.now t,.ok text⟩,⟨Stage.now u,.error _⟩],?_,.unsettled hits⟩
        rw [second]
        simp only [Stage.sleep,first,List.append_assoc,List.cons_append,List.nil_append]
      | shown capture =>
        have second := Journal.captured capture
        refine ⟨[⟨Stage.now t,.ok text⟩,_],?_,.caught hits rfl⟩
        rw [second]
        simp only [Stage.sleep,first,List.append_assoc,List.cons_append,List.nil_append]
    | @miss text t early capture miss =>
      rw [Round.withinAgain same]
      have first := Journal.captured capture
      have misses : Misses n (⟨Stage.now t,.ok text⟩ : Capture ε) := ⟨text,rfl,miss⟩
      obtain ⟨written,entries,tail⟩ := ih (Stage.sleep settings.pollInterval t)
      refine ⟨⟨Stage.now t,.ok text⟩::written,?_,.poll misses tail⟩
      rw [entries]
      simp only [Stage.sleep,first,List.append_assoc,List.cons_append,List.nil_append]

theorem writtenByWait {rounds : Nat} {settings : Settings} {n : UInt32} {timeout : Span}
    {j k : Journal σ ε} {answer}
    (waited : wait rounds settings n timeout j = (answer,k)) :
    ∃ written, k.entries = j.entries ++ written ∧ Written n (Stage.now k) answer written := by
  have written := roundsWritten settings n timeout (Stage.now j) rounds j
  unfold wait at waited
  rwa [waited] at written

theorem missedAll {n : UInt32} {reading : Span} {written : List (Capture ε)}
    (source : Written n reading (some (.ok none)) written) : ∀ e ∈ written, Misses n e := by
  generalize same : some (Except.ok none : WaitAnswer ε) = answer at source
  induction source with
  | poll misses tail ih =>
    intro e mem
    rcases List.mem_cons.mp mem with rfl | rest
    · exact misses
    · exact ih same e rest
  | missed => simp
  | _ => cases same

theorem caughtLast {n : UInt32} {reading : Span} {snapshot : Snapshot} {written : List (Capture ε)}
    (source : Written n reading (some (.ok (some snapshot))) written) :
    ∃ polls hit text, written = polls ++ [hit,⟨reading,.ok text⟩] ∧ Hits n hit ∧
      snapshot.toSighting = Sighting.ofContent text n := by
  generalize same : some (Except.ok (some snapshot) : WaitAnswer ε) = answer at source
  induction source with
  | @poll e answer rest misses tail ih =>
    obtain ⟨polls,hit,text,rfl,hits,shows⟩ := ih same
    exact ⟨e::polls,hit,text,rfl,hits,shows⟩
  | caught hits shows =>
    cases same
    exact ⟨[],_,_,rfl,hits,shows⟩
  | _ => cases same

end Watch
end PaneWatch
