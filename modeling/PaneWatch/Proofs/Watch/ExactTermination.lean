import PaneWatch.Proofs.Watch.Served
import PaneWatch.Proofs.Watch.Steps
import PaneWatch.Session

/-! A wait for the end on a bench whose clock moves with it, told from the outcomes that the
source will serve. The round remembers the last text and a count; the invariant is that these
are the text of the capture just made and how often it had been seen again by then. -/
namespace PaneWatch.Watch

variable {π ε : Type} [Source π ε]

/- A pane is still when four outcomes in a row are equal; the blank one before the first capture
can be one of them. -/
inductive EndsTermination (p : π) (k : Nat) : Prop where
  | failed {e} (served : Source.served p k = .error e)
  | prompt {text} (served : Source.served p k = .ok text) (prompt : Marker.isPrompt text = true)
  | still (third : 3 ≤ k) (first : Source.served p (k-3) = Source.served p (k-2))
      (second : Source.served p (k-2) = Source.served p (k-1))
      (last : Source.served p (k-1) = Source.served p k)

instance [DecidableEq ε] (p : π) (k : Nat) : Decidable (EndsTermination p k) :=
  match served : Source.served p k with
  | .error _ => isTrue (.failed served)
  | .ok text =>
    if prompt : Marker.isPrompt text = true then isTrue (.prompt served prompt)
    else decidable_of_iff (3 ≤ k ∧ Source.served p (k-3) = Source.served p (k-2) ∧
        Source.served p (k-2) = Source.served p (k-1) ∧ Source.served p (k-1) = .ok text) <| by
      refine ⟨fun ⟨third,first,second,last⟩ => .still third first second (last.trans served.symm),
        fun ends => ?_⟩
      rcases ends with failed | ⟨same,shown⟩ | ⟨third,first,second,last⟩
      · rw [failed] at served; cases served
      · rw [same] at served; cases served; exact absurd shown prompt
      · exact ⟨third,first,second,last.trans served⟩

def seen (p : π) (k : Nat) : String :=
  match Source.served p k with
  | .ok text => text
  | .error _ => ""

def seenAgain (p : π) : Nat → Nat
  | 0 => 0
  | k+1 => if seen p (k+1) = seen p k then seenAgain p k + 1 else 0

theorem seenWindow {p : π} {m k : Nat} :
    m ≤ seenAgain p k ↔ m ≤ k ∧ ∀ j < m, seen p (k-j) = seen p (k-(j+1)) := by
  induction k generalizing m with
  | zero =>
    refine ⟨fun le => ⟨le,fun j lt => ?_⟩,fun window => window.1⟩
    have none : m = 0 := Nat.le_zero.mp le
    omega
  | succ k ih =>
    rcases m with _ | m
    · simp
    by_cases same : seen p (k+1) = seen p k
    · have again : seenAgain p (k+1) = seenAgain p k + 1 := if_pos same
      rw [again,Nat.succ_le_succ_iff,Nat.succ_le_succ_iff,ih]
      -- The window that ends at k+1 is its last pair and then the window that ends at k.
      refine and_congr_right fun _ => ⟨fun window j lt => ?_,fun window j lt => ?_⟩
      · rcases j with _ | j
        · exact same
        · have shifted := window j (by omega)
          rwa [← Nat.add_sub_add_right k 1 j,← Nat.add_sub_add_right k 1 (j+1)] at shifted
      · have shifted := window (j+1) (by omega)
        rwa [Nat.add_sub_add_right,Nat.add_sub_add_right] at shifted
    · have again : seenAgain p (k+1) = 0 := if_neg same
      rw [again]
      exact ⟨fun le => absurd le (Nat.not_succ_le_zero m),
        fun ⟨_,window⟩ => absurd (window 0 (Nat.zero_lt_succ m)) same⟩

theorem servedSeen {p : π} {k : Nat} (goesOn : ∀ j < k, ¬ EndsTermination p (j+1)) :
    ∀ j ≤ k, Source.served p j = .ok (seen p j) := by
  intro j le
  rcases j with _ | j
  · rfl
  · rcases served : Source.served p (j+1) with e | text
    · exact absurd (.failed served) (goesOn j le)
    · simp only [seen,served]

theorem seenStill {p : π} {k : Nat} (served : ∀ j ≤ k, Source.served p j = .ok (seen p j)) :
    3 ≤ seenAgain p k ↔ 3 ≤ k ∧ Source.served p (k-3) = Source.served p (k-2) ∧
      Source.served p (k-2) = Source.served p (k-1) ∧
      Source.served p (k-1) = Source.served p k := by
  rw [seenWindow,served (k-3) (by omega),served (k-2) (by omega),served (k-1) (by omega),
    served k (Nat.le_refl k)]
  simp only [Except.ok.injEq]
  refine and_congr_right fun _ => ⟨fun window => ?_,fun ⟨first,second,last⟩ j lt => ?_⟩
  · exact ⟨(window 2 (by omega)).symm,(window 1 (by omega)).symm,(window 0 (by omega)).symm⟩
  · match j with
    | 0 => exact last.symm
    | 1 => exact second.symm
    | 2 => exact first.symm

section Rounds

variable {timeout poll : Span} {b : Bench π} {k : Nat}

def stillnessAt (b : Bench π) (poll : Span) (k : Nat) : Stillness (Bench π) :=
  ⟨b.later (k * poll.millis) k,seen b.source k,seenAgain b.source k⟩

theorem terminationPassed (moves : b.clock.autoAdvance = true)
    (early : Stage.elapsedSince (Stage.now b) (b.later (k * poll.millis) k) < timeout)
    (goesOn : ∀ j ≤ k, ¬ EndsTermination b.source (j+1)) :
    terminationRound timeout poll (Stage.now b) (stillnessAt b poll k) =
      .again (stillnessAt b poll (k+1)) := by
  have served : ∀ j ≤ k+1, Source.served b.source j = .ok (seen b.source j) :=
    servedSeen fun j lt => goesOn j (Nat.le_of_lt_succ lt)
  have capture := Bench.laterCapture b (k * poll.millis) k
  rw [served (k+1) (Nat.le_refl (k+1))] at capture
  have busy : Marker.isPrompt (seen b.source (k+1)) = false :=
    Bool.eq_false_iff.mpr fun prompt =>
      goesOn k (Nat.le_refl k) (.prompt (served (k+1) (Nat.le_refl (k+1))) prompt)
  have next : Stage.sleep poll (b.later (k * poll.millis) (k+1)) =
      b.later ((k+1) * poll.millis) (k+1) := by
    rw [Bench.laterSleep moves,← Nat.succ_mul]
  by_cases same : seen b.source (k+1) = seen b.source k
  · have again : seenAgain b.source (k+1) = seenAgain b.source k + 1 := if_pos same
    have few : seenAgain b.source k + 1 < Settings.requiredStableCaptures := by
      -- One time more would be a window of four equal outcomes.
      by_contra enough
      obtain ⟨third,first,second,last⟩ := (seenStill served).mp
        (again ▸ Nat.not_lt.mp enough)
      exact goesOn k (Nat.le_refl k) (.still third first second last)
    rw [terminationExact (.same early capture busy same few),next]
    simp only [stillnessAt,again]
  · have again : seenAgain b.source (k+1) = 0 := if_neg same
    rw [terminationExact (.changed early capture busy same),next]
    simp only [stillnessAt,again]

theorem terminationEnded
    (early : Stage.elapsedSince (Stage.now b) (b.later (k * poll.millis) k) < timeout)
    (goesOn : ∀ j < k, ¬ EndsTermination b.source (j+1)) (ends : EndsTermination b.source (k+1)) :
    ∃ w, w.stage = b.later (k * poll.millis) (k+1) ∧
      terminationRound timeout poll (Stage.now b) (stillnessAt b poll k) =
        .done ((Source.served b.source (k+1)).map fun text => (text,true)) w := by
  have capture := Bench.laterCapture b (k * poll.millis) k
  rcases served : Source.served b.source (k+1) with e | text
  · rw [served] at capture
    exact ⟨_,rfl,terminationExact (.failed early capture)⟩
  · rw [served] at capture
    have shown : seen b.source (k+1) = text := by simp only [seen,served]
    have sign : Marker.isPrompt text = true ∨
        text = seen b.source k ∧ Settings.requiredStableCaptures ≤ seenAgain b.source k + 1 := by
      cases ends with
      | failed failed => rw [failed] at served; cases served
      | prompt same prompt => rw [same] at served; cases served; exact .inl prompt
      | still third first second last =>
        have all : ∀ j ≤ k+1, Source.served b.source j = .ok (seen b.source j) := by
          intro j le
          rcases Nat.le_succ_iff.mp le with before | rfl
          · exact servedSeen goesOn j before
          · rw [served,shown]
        have same : seen b.source (k+1) = seen b.source k := by
          have outcomes := last
          rw [Nat.add_sub_cancel,all k (by omega),all (k+1) (by omega)] at outcomes
          exact (Except.ok.inj outcomes).symm
        have again : seenAgain b.source (k+1) = seenAgain b.source k + 1 := if_pos same
        have enough := (seenStill all).mpr ⟨third,first,second,last⟩
        rw [again] at enough
        exact .inr ⟨shown ▸ same,enough⟩
    exact ⟨_,rfl,terminationExact (.ended early capture sign)⟩

theorem terminationEnds {rounds : Nat} {answer : TerminationAnswer ε} {w : Stillness (Bench π)}
    (moves : b.clock.autoAdvance = true) (ticks : 1 ≤ poll.millis)
    (fits : b.clock.millis.toNat + timeout.millisUp + poll.millis ≤ UInt64.size)
    (enough : k < rounds) (before : k ≤ polls timeout poll)
    (goesOn : ∀ j < k, ¬ EndsTermination b.source (j+1))
    (last : terminationRound timeout poll (Stage.now b) (stillnessAt b poll k) =
      .done answer w) : termination rounds timeout poll b = (some answer,w.stage) := by
  have steps : ∀ j < k, terminationRound timeout poll (Stage.now b) (stillnessAt b poll j) =
      .again (stillnessAt b poll (j+1)) := by
    intro j lt
    have early := (pollEarly ticks fits (by omega)).mpr (Nat.lt_of_lt_of_le lt before)
    exact terminationPassed moves early fun i le => goesOn i (by omega)
  have start : stillnessAt b poll 0 = ⟨b,"",0⟩ := by
    simp only [stillnessAt,Nat.zero_mul,Bench.laterStart,seen,Source.served,seenAgain]
  have run := Round.withinAfter (stillnessAt b poll) steps last enough
  rw [termination,← start,run]
  rfl

theorem exitSwapped {rounds : Nat} {answer : TerminationAnswer ε} {c : Bench π}
    (waited : termination rounds timeout poll b = (some answer,c)) :
    processExit rounds timeout poll b = (some (answer.map Prod.swap),c) := by
  rw [processExit,waited]
  rfl

end Rounds

theorem terminationExactly {rounds : Nat} {timeout poll : Span} {b : Bench π}
    (moves : b.clock.autoAdvance = true) (ticks : 1 ≤ poll.millis)
    (fits : b.clock.millis.toNat + timeout.millisUp + poll.millis ≤ UInt64.size)
    (enough : polls timeout poll < rounds) :
    (∀ i, FirstEnd (EndsTermination b.source) timeout poll i → ∃ c,
      termination rounds timeout poll b =
        (some ((Source.served b.source i).map fun text => (text,true)),c) ∧
      processExit rounds timeout poll b =
        (some ((Source.served b.source i).map fun text => (true,text)),c) ∧
      b.Moved ((i-1) * poll.millis) i c) ∧
    ((¬ ∃ i, FirstEnd (EndsTermination b.source) timeout poll i) → ∃ text c,
      Source.served b.source (polls timeout poll) = .ok text ∧
      termination rounds timeout poll b = (some (.ok (text,false)),c) ∧
      processExit rounds timeout poll b = (some (.ok (false,text)),c) ∧
      b.Moved (polls timeout poll * poll.millis) (polls timeout poll) c) := by
  refine ⟨fun i first => ?_,fun none => ?_⟩
  · obtain ⟨k,rfl,before,ends,goesOn⟩ := firstEnd first
    have early := (pollEarly ticks fits (Nat.le_of_lt before)).mpr before
    obtain ⟨w,stage,last⟩ := terminationEnded early goesOn ends
    have waited := terminationEnds moves ticks fits (Nat.lt_trans before enough)
      (Nat.le_of_lt before) goesOn last
    rw [stage] at waited
    have moved := Bench.laterMoved (pollFits ticks fits (Nat.le_of_lt before)) (k+1)
    rw [Nat.add_sub_cancel]
    refine ⟨_,waited,?_,moved⟩
    rw [exitSwapped waited]
    cases Source.served b.source (k+1) <;> rfl
  · have goesOn : ∀ j < polls timeout poll, ¬ EndsTermination b.source (j+1) :=
      fun j => noFirstEnd none
    have waited := terminationEnds moves ticks fits enough (Nat.le_refl _) goesOn
      (terminationExact (.late (pollsOver ticks fits)))
    exact ⟨_,_,servedSeen goesOn _ (Nat.le_refl _),waited,exitSwapped waited,
      Bench.laterMoved (pollFits ticks fits (Nat.le_refl _)) _⟩

def stillBench : Bench ScriptedPane :=
  .start (.startingAt 7) (.ofFrames [.ok "busy",.ok "",.ok "done"]) fun _ => .epoch

theorem terminationExactlyStill :
    ∃ c, termination 9 ⟨79000001⟩ (Span.ofMillis 10) stillBench = (some (.ok ("done",true)),c) ∧
      processExit 9 ⟨79000001⟩ (Span.ofMillis 10) stillBench = (some (.ok (true,"done")),c) ∧
      stillBench.Moved 50 6 c := by
  have first : FirstEnd (EndsTermination stillBench.source) ⟨79000001⟩ (Span.ofMillis 10) 6 := by
    refine ⟨by decide,fun i ⟨one,_,ends⟩ => ?_⟩
    have goesOn : ∀ j < 6, 1 ≤ j → ¬ EndsTermination stillBench.source j := by decide
    by_contra further
    exact goesOn i (Nat.not_le.mp further) one ends
  exact (terminationExactly rfl (by decide) (by decide) (by decide)).1 6 first

end PaneWatch.Watch
