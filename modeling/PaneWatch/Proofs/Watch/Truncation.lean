import PaneWatch.Proofs.Watch.Journal

/-! What a timeout does to a wait: it cuts it short, and changes nothing before that. Rounds with
a shorter timeout are those with a longer one up to the round that comes too late, so what was
answered in time is answered with more time too, and what was captured is captured again. -/
namespace PaneWatch

namespace Round

variable {σ β : Type} {Cut : β → Prop} {f g : σ → Round σ β} {n : Nat} {s : σ} {out : Option β × σ}

/- What comes of `n` rounds that go along with those of `g`, but may stop before one of them. -/
inductive CutShort (Cut : β → Prop) (g : σ → Round σ β) (n : Nat) (s : σ) :
    Option β × σ → Prop where
  | whole : CutShort Cut g n s (within g n s)
  | cut {a t k} (cut : Cut a) (le : k ≤ n) (onward : ∀ m, within g (k + m) s = within g m t) :
      CutShort Cut g n s (some a,t)

theorem cutLater {t} (round : g s = .again t) (short : CutShort Cut g n t out) :
    CutShort Cut g (n+1) s out := by
  cases short with
  | whole => rw [← withinAgain round]; exact .whole
  | @cut a u k cut le onward =>
    refine .cut cut (Nat.succ_le_succ le) fun m => ?_
    rw [Nat.succ_add,withinAgain round]
    exact onward m

theorem withinCut (step : ∀ s, f s = g s ∨ ∃ a, f s = .done a s ∧ Cut a) (n : Nat) (s : σ) :
    CutShort Cut g n s (within f n s) := by
  induction n generalizing s with
  | zero => exact .whole
  | succ n ih =>
    rcases step s with same | ⟨a,stops,cut⟩
    · cases round : g s with
      | done a t =>
        rw [withinDone (same.trans round),← withinDone round n]
        exact .whole
      | again t =>
        rw [withinAgain (same.trans round)]
        exact cutLater round (ih t)
    · rw [withinDone stops]
      exact .cut cut (Nat.zero_le _) fun m => by rw [Nat.zero_add]

theorem uncut {a t} (short : CutShort Cut g n s out) (returned : out = (some a,t))
    (whole : ¬ Cut a) : within g n s = (some a,t) := by
  cases short with
  | whole => exact returned
  | cut cut le onward =>
    cases returned
    exact absurd cut whole

theorem cutAsWell {a t} (short : CutShort Cut g n s out) (returned : within g n s = (some a,t))
    (cut : Cut a) : ∃ b u, out = (some b,u) ∧ Cut b := by
  cases short with
  | whole => exact ⟨a,t,returned,cut⟩
  | cut own le onward => exact ⟨_,_,rfl,own⟩

theorem keptOnward {Q : σ → Prop} (kept : ∀ s, Q s → Q (g s).left) {a t}
    (short : CutShort Cut g n s out) (returned : out = (some a,t)) (there : Q t) {m : Nat}
    (le : n ≤ m) : Q (within g m s).2 := by
  cases short with
  | whole => rwa [moreRounds returned le]
  | cut cut before onward =>
    cases returned
    obtain ⟨more,rfl⟩ := Nat.exists_eq_add_of_le (Nat.le_trans before le)
    rw [onward]
    exact withinKeeps kept more there

end Round

namespace Watch

section Rounds

variable {σ ε : Type} [Stage σ ε] {shorter longer : Span}

theorem waitRoundCut (le : shorter ≤ longer) (settings : Settings) (n : UInt32) (start : Span)
    (s : σ) :
    waitRound settings n shorter start s = waitRound settings n longer start s ∨
      ∃ a : WaitAnswer ε, waitRound settings n shorter start s = .done a s ∧ a = .ok none := by
  by_cases early : Stage.elapsedSince start s < shorter
  · have stillEarly : Stage.elapsedSince start s < longer := Nat.lt_of_lt_of_le early le
    exact .inl (by rw [waitRound,waitRound,if_pos early,if_pos stillEarly])
  · exact .inr ⟨.ok none,waitExact (.late early),rfl⟩

theorem terminationRoundCut (le : shorter ≤ longer) (poll start : Span) (w : Stillness σ) :
    terminationRound shorter poll start w = terminationRound longer poll start w ∨
      ∃ a : TerminationAnswer ε, terminationRound shorter poll start w = .done a w ∧
        ∃ text, a = .ok (text,false) := by
  by_cases early : Stage.elapsedSince start w.stage < shorter
  · have stillEarly : Stage.elapsedSince start w.stage < longer := Nat.lt_of_lt_of_le early le
    exact .inl (by rw [terminationRound,terminationRound,if_pos early,if_pos stillEarly])
  · exact .inr ⟨.ok (w.text,false),terminationExact (.late early),w.text,rfl⟩

theorem waitCut (le : shorter ≤ longer) (rounds : Nat) (settings : Settings) (n : UInt32) (s : σ) :
    Round.CutShort (fun a : WaitAnswer ε => a = .ok none)
      (waitRound settings n longer (Stage.now s)) rounds s (wait rounds settings n shorter s) :=
  Round.withinCut (waitRoundCut le settings n (Stage.now s)) rounds s

theorem terminationCut (le : shorter ≤ longer) (rounds : Nat) (poll : Span) (s : σ) :
    Round.CutShort (fun a : TerminationAnswer ε => ∃ text, a = .ok (text,false))
      (terminationRound longer poll (Stage.now s)) rounds ⟨s,"",0⟩
      (Round.within (terminationRound shorter poll (Stage.now s)) rounds ⟨s,"",0⟩) :=
  Round.withinCut (terminationRoundCut le poll (Stage.now s)) rounds ⟨s,"",0⟩

theorem terminationRuns {rounds : Nat} {timeout poll : Span} {s t : σ}
    {answer : TerminationAnswer ε} (run : termination rounds timeout poll s = (some answer,t)) :
    ∃ w : Stillness σ, Round.within (terminationRound timeout poll (Stage.now s)) rounds ⟨s,"",0⟩ =
      (some answer,w) ∧ w.stage = t := by
  obtain ⟨answers,stages⟩ := Prod.mk.inj run
  exact ⟨_,Prod.ext answers rfl,stages⟩

theorem terminationUncut {rounds : Nat} {poll : Span} {s t : σ} {answer : TerminationAnswer ε}
    (le : shorter ≤ longer) (run : termination rounds shorter poll s = (some answer,t))
    (ended : ∀ text, answer ≠ .ok (text,false)) :
    termination rounds longer poll s = (some answer,t) := by
  obtain ⟨w,stopped,rfl⟩ := terminationRuns run
  have whole : ¬ ∃ text, answer = .ok (text,false) := fun ⟨text,cut⟩ => ended text cut
  rw [termination,Round.uncut (terminationCut le rounds poll s) stopped whole]
  rfl

theorem terminationOnward {rounds more : Nat} {poll : Span} {s t : σ}
    {answer : TerminationAnswer ε} {Q : σ → Prop} (kept : Kept Q) (le : shorter ≤ longer)
    (run : termination rounds shorter poll s = (some answer,t)) (there : Q t)
    (further : rounds ≤ more) : Q (termination more longer poll s).2 := by
  obtain ⟨w,stopped,rfl⟩ := terminationRuns run
  exact Round.keptOnward (Q := fun w : Stillness σ => Q w.stage)
    (kept.terminationRound longer poll (Stage.now s)) (terminationCut le rounds poll s) stopped
    there further

end Rounds

section Scenes
open Scene (undated)

variable {settings : Settings} {n : UInt32} {poll shorter longer : Span} {s : Scene}
  {dates : Nat → Timestamp}

theorem seenWithMoreTime (le : shorter ≤ longer) {answer : WaitAnswer CaptureFailure} {t : Scene}
    (returned : Returns (fun rounds => wait rounds settings n shorter s) answer t)
    (seen : answer ≠ .ok none) :
    ∃ answer', Returns (fun rounds => wait rounds settings n longer (s.dated dates)) answer'
        (t.dated dates) ∧ answerDated undated answer' = answerDated undated answer := by
  obtain ⟨rounds,run⟩ := returned
  have longRun : wait rounds settings n longer s = (some answer,t) :=
    Round.uncut (waitCut le rounds settings n s) run seen
  obtain ⟨answers,scenes⟩ := (Scene.datedLockstep dates).waitAlong rounds settings n longer s
  rw [longRun] at answers scenes
  obtain ⟨answer',dated,shows⟩ := Option.map_eq_some_iff.mp answers.symm
  exact ⟨answer',⟨rounds,Prod.ext dated scenes.symm⟩,shows⟩

theorem missedWithLessTime (le : shorter ≤ longer) {t : Scene}
    (returned : Returns (fun rounds => wait rounds settings n longer (s.dated dates))
      (.ok none) t) :
    ∃ u, Returns (fun rounds => wait rounds settings n shorter s) (.ok none) u := by
  obtain ⟨rounds,run⟩ := returned
  change wait rounds settings n longer (s.dated dates) = _ at run
  obtain ⟨answers,_⟩ := (Scene.datedLockstep dates).waitAlong rounds settings n longer s
  rw [run] at answers
  rcases longRun : wait rounds settings n longer s with ⟨_ | e | _ | snapshot,u⟩ <;>
    rw [longRun] at answers <;> simp [answerDated,Except.map] at answers
  obtain ⟨a,v,shortRun,cut⟩ := Round.cutAsWell (waitCut le rounds settings n s) longRun rfl
  exact ⟨v,rounds,cut ▸ shortRun⟩

theorem endedWithMoreTime (le : shorter ≤ longer) {answer : TerminationAnswer CaptureFailure}
    {t : Scene} (returned : Returns (fun rounds => termination rounds shorter poll s) answer t)
    (ended : ∀ text, answer ≠ .ok (text,false)) :
    Returns (fun rounds => termination rounds longer poll (s.dated dates)) answer
      (t.dated dates) := by
  obtain ⟨rounds,run⟩ := returned
  have dated := (Scene.datedLockstep dates).terminationAlong rounds longer poll s
  rw [terminationUncut le run ended] at dated
  exact ⟨rounds,dated.symm⟩

def journalFrom (s : Scene) : Journal Scene CaptureFailure := .start s

def journalDated (dates : Nat → Timestamp) (j : Journal Scene CaptureFailure) :
    Journal Scene CaptureFailure :=
  ⟨j.stage.dated dates,j.entries⟩

theorem journalLockstep (dates : Nat → Timestamp) : Along undated (journalDated dates) :=
  .along (journalDated dates) (fun _ => rfl) (fun _ => rfl) (fun _ _ => rfl) (fun _ => rfl)

theorem capturedWithMoreTime (le : shorter ≤ longer) {answer : TerminationAnswer CaptureFailure}
    {t : Scene} (returned : Returns (fun rounds => termination rounds shorter poll s) answer t)
    (dates : Nat → Timestamp) :
    ∃ (entries : List (Capture CaptureFailure)) (enough : Nat),
      Returns (fun rounds => termination rounds shorter poll (journalFrom s)) answer ⟨t,entries⟩ ∧
      ∀ rounds ≥ enough,
        entries <+: (termination rounds longer poll (journalFrom (s.dated dates))).2.entries := by
  obtain ⟨rounds,run⟩ := returned
  have erased := Journal.lockstep.terminationAlong rounds shorter poll (journalFrom s)
  rcases kept : termination rounds shorter poll (journalFrom s) with ⟨own,⟨u,entries⟩⟩
  rw [kept] at erased
  cases erased.trans run
  refine ⟨entries,rounds,⟨rounds,kept⟩,fun more enough => ?_⟩
  have captured := terminationOnward (Journal.growing entries) le kept (List.prefix_refl _) enough
  have dated := (journalLockstep dates).terminationAlong more longer poll (journalFrom s)
  rw [show journalFrom (s.dated dates) = journalDated dates (journalFrom s) from rfl,← dated]
  exact captured

/- What the longer of two timeouts changes for a wait and for the end of a program, from one
scene on. The longer runs may have their captures dated differently. -/
structure Truncates (settings : Settings) (n : UInt32) (poll shorter longer : Span) (s : Scene)
    (dates : Nat → Timestamp) : Prop where
  seen : ∀ answer t, Returns (fun rounds => wait rounds settings n shorter s) answer t →
    answer ≠ .ok none →
    ∃ answer', Returns (fun rounds => wait rounds settings n longer (s.dated dates)) answer'
        (t.dated dates) ∧ answerDated undated answer' = answerDated undated answer
  missed : ∀ t, Returns (fun rounds => wait rounds settings n longer (s.dated dates))
      (.ok none) t →
    ∃ u, Returns (fun rounds => wait rounds settings n shorter s) (.ok none) u
  ended : ∀ answer t, Returns (fun rounds => termination rounds shorter poll s) answer t →
    (∀ text, answer ≠ .ok (text,false)) →
    Returns (fun rounds => termination rounds longer poll (s.dated dates)) answer (t.dated dates)
  captured : ∀ text t, Returns (fun rounds => termination rounds shorter poll s)
      (.ok (text,false)) t →
    ∃ (entries : List (Capture CaptureFailure)) (enough : Nat),
      Returns (fun rounds => termination rounds shorter poll (journalFrom s)) (.ok (text,false))
        ⟨t,entries⟩ ∧
      ∀ rounds ≥ enough,
        entries <+: (termination rounds longer poll (journalFrom (s.dated dates))).2.entries

theorem timeoutTruncates (le : shorter ≤ longer) (settings : Settings) (n : UInt32) (poll : Span)
    (s : Scene) (dates : Nat → Timestamp) :
    Truncates settings n poll shorter longer s dates where
  seen := fun _ _ returned seen => seenWithMoreTime le returned seen
  missed := fun _ returned => missedWithLessTime le returned
  ended := fun _ _ returned ended => endedWithMoreTime le returned ended
  captured := fun _ _ returned => capturedWithMoreTime le returned dates

end Scenes

def lateScene : Scene :=
  ⟨.system ⟨Span.zero,Span.zero⟩,.ofFrames [.ok "[iter 1]"],[⟨Span.ofMillis 25,"[iter 2]"⟩],
    fun _ => .epoch⟩

def lateSettings : Settings := ⟨Span.ofMillis 10,Span.ofMillis 20⟩

theorem timeoutTruncatesLate :
    (∃ answer t, Returns (fun rounds => wait rounds lateSettings 2 (Span.ofMillis 90)
        (lateScene.dated fun _ => .epoch)) answer t ∧
      answerDated Scene.undated answer = .ok (some (Snapshot.ofContent "[iter 2]" 2 .epoch))) ∧
    ∃ t entries enough,
      Returns (fun rounds => termination rounds (Span.ofMillis 40) (Span.ofMillis 10)
        (journalFrom lateScene)) (.ok ("[iter 2]",false)) ⟨t,entries⟩ ∧
      ∀ rounds ≥ enough,
        entries <+: (termination rounds (Span.ofMillis 90) (Span.ofMillis 10)
          (journalFrom (lateScene.dated fun _ => .epoch))).2.entries := by
  have le : Span.ofMillis 40 ≤ Span.ofMillis 90 := by decide
  have law := timeoutTruncates le lateSettings 2 (Span.ofMillis 10) lateScene fun _ => .epoch
  have seen : Returns (fun rounds => wait rounds lateSettings 2 (Span.ofMillis 40) lateScene)
      (.ok (some (Snapshot.ofContent "[iter 2]" 2 .epoch))) _ := ⟨9,Prod.ext (by rfl) rfl⟩
  have given : Returns (fun rounds => termination rounds (Span.ofMillis 40) (Span.ofMillis 10)
      lateScene) (.ok ("[iter 2]",false)) _ := ⟨9,Prod.ext (by rfl) rfl⟩
  obtain ⟨answer,returned,shows⟩ := law.seen _ _ seen (by simp)
  exact ⟨⟨answer,_,returned,shows⟩,_,law.captured _ _ given⟩

end Watch
end PaneWatch
