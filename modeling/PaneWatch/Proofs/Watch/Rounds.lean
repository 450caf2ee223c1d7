import PaneWatch.Watch

/-! Following a wait for a number of rounds: what a round keeps the whole wait keeps, more
rounds never change an answer, and two waits whose rounds agree agree as a whole. -/
namespace PaneWatch.Round

variable {σ τ β δ : Type}

def left : Round σ β → σ
  | again s => s
  | done _ s => s

theorem withinAgain {round : σ → Round σ β} {s t} (step : round s = .again t) (n : Nat) :
    within round (n+1) s = within round n t := by
  simp only [within,step]

theorem withinDone {round : σ → Round σ β} {s a t} (step : round s = .done a t) (n : Nat) :
    within round (n+1) s = (some a,t) := by
  simp only [within,step]

theorem moreRounds {round : σ → Round σ β} {n m s a t}
    (ok : within round n s = (some a,t)) (le : n ≤ m) : within round m s = (some a,t) := by
  induction n generalizing m s with
  | zero => simp [within] at ok
  | succ n ih =>
    obtain ⟨m,rfl⟩ := Nat.exists_eq_add_of_le' le
    cases step : round s with
    | again next =>
      rw [withinAgain step] at ok
      rw [show m + (n+1) = (m + n) + 1 from rfl,withinAgain step]
      exact ih ok (by omega)
    | done answer last =>
      rw [withinDone step] at ok
      rw [show m + (n+1) = (m + n) + 1 from rfl,withinDone step,ok]

theorem withinStates {round : σ → Round σ β} (state : Nat → σ) (k : Nat)
    (steps : ∀ j < k, round (state j) = .again (state (j+1))) (n : Nat) :
    within round (k + n) (state 0) = within round n (state k) := by
  induction k generalizing n with
  | zero => rw [Nat.zero_add]
  | succ k ih =>
    rw [show k + 1 + n = k + (n+1) by omega,ih (fun j lt => steps j (by omega)),
      withinAgain (steps k (by omega))]

theorem withinForever {round : σ → Round σ β} (state : Nat → σ)
    (steps : ∀ j, round (state j) = .again (state (j+1))) (n : Nat) :
    within round n (state 0) = (none,state n) :=
  withinStates state n (fun j _ => steps j) 0

theorem withinAfter {round : σ → Round σ β} (state : Nat → σ) {k n a t}
    (steps : ∀ j < k, round (state j) = .again (state (j+1)))
    (last : round (state k) = .done a t) (enough : k < n) :
    within round n (state 0) = (some a,t) := by
  obtain ⟨m,rfl⟩ := Nat.exists_eq_add_of_lt enough
  rw [show k + m + 1 = k + (m+1) by omega,withinStates state k steps,withinDone last]

theorem withinKeeps {Q : σ → Prop} {round : σ → Round σ β}
    (step : ∀ s, Q s → Q (round s).left) (n : Nat) {s} (before : Q s) :
    Q (within round n s).2 := by
  induction n generalizing s with
  | zero => exact before
  | succ n ih =>
    have after := step s before
    cases h : round s with
    | again next => rw [withinAgain h]; rw [h] at after; exact ih after
    | done answer last => rw [withinDone h]; rw [h] at after; exact after

theorem withinFalls {Q : σ → Prop} {measure : σ → Nat} {round : σ → Round σ β}
    (falls : ∀ s t, Q s → round s = .again t → Q t ∧ measure t < measure s)
    {n : Nat} {s} (before : Q s) (enough : measure s < n) :
    ∃ a t, within round n s = (some a,t) := by
  induction n generalizing s with
  | zero => exact absurd enough (Nat.not_lt_zero _)
  | succ n ih =>
    cases step : round s with
    | done a t => exact ⟨a,t,withinDone step n⟩
    | again t =>
      obtain ⟨after,less⟩ := falls s t before step
      rw [withinAgain step]
      exact ih after (Nat.lt_of_lt_of_le less (Nat.le_of_lt_succ enough))

theorem withinCosts {c : σ → Nat} {round : σ → Round σ β}
    (once : ∀ s, c (round s).left ≤ c s + 1) (n : Nat) (s : σ) :
    c (within round n s).2 ≤ c s + n := by
  induction n generalizing s with
  | zero => exact Nat.le_refl _
  | succ n ih =>
    have first := once s
    cases step : round s with
    | done a t =>
      rw [withinDone step]
      rw [step] at first
      exact Nat.le_trans first (by omega)
    | again t =>
      rw [withinAgain step]
      rw [step] at first
      have rest := ih t
      change c t ≤ c s + 1 at first
      omega

inductive Agree (R : σ → τ → Prop) (view : β → δ) : Round σ β → Round τ β → Prop where
  | again {s t} (together : R s t) : Agree R view (.again s) (.again t)
  | done {a b s t} (same : view a = view b) (together : R s t) :
      Agree R view (.done a s) (.done b t)

/- `Lost` marks the states from which agreement is no longer claimed. A state once lost stays
lost, so a wait that ends on one that is not never met one. -/
theorem withinAgree {R : σ → τ → Prop} {Lost : τ → Prop} {view : β → δ}
    {f : σ → Round σ β} {g : τ → Round τ β} (lost : ∀ t, Lost t → Lost (g t).left)
    (step : ∀ s t, R s t → ¬ Lost (g t).left → Agree R view (f s) (g t))
    (n : Nat) {s t} (together : R s t) (kept : ¬ Lost (within g n t).2) :
    (within f n s).1.map view = (within g n t).1.map view ∧
      R (within f n s).2 (within g n t).2 := by
  induction n generalizing s t with
  | zero => exact ⟨rfl,together⟩
  | succ n ih =>
    have agree : ¬ Lost (g t).left → Agree R view (f s) (g t) := step s t together
    cases hg : g t with
    | done b t' =>
      rw [withinDone hg] at kept ⊢
      rw [hg] at agree
      cases hf : f s with
      | again s' => rw [hf] at agree; cases agree kept
      | done a s' =>
        rw [hf] at agree
        rw [withinDone hf]
        cases agree kept with
        | done same rest => exact ⟨congrArg some same,rest⟩
    | again t' =>
      rw [withinAgain hg] at kept ⊢
      rw [hg] at agree
      have alive : ¬ Lost t' := fun h => kept (withinKeeps lost n h)
      cases hf : f s with
      | done a s' => rw [hf] at agree; cases agree alive
      | again s' =>
        rw [hf] at agree
        rw [withinAgain hf]
        cases agree alive with
        | again rest => exact ih rest kept

end PaneWatch.Round
