import PaneWatch.Proofs.Watch.Lockstep

/-! What it changes to ask for more targets: nothing about those that were asked for before. A
run that stopped before its last target stops there again, and a run that caught all of its
targets is the front of the longer one. -/
namespace PaneWatch.Watch

section Targets

variable {σ ε : Type} [Stage σ ε] {rounds : Nat} {settings : Settings}
  {timeout budget start : Span} {left target : Nat} {p : Progress σ}
  {out : Option (Except ε Recording) × Progress σ}

theorem stopsAgain (run : TargetRun rounds settings timeout budget start left target p out)
    (stopped : ∀ r, out.1 = some (.ok r) → r.captured < left) (more : Nat) :
    TargetRun rounds settings timeout budget start (more + left) target p out := by
  induction run with
  | finished target p => exact absurd (stopped _ rfl) (Nat.lt_irrefl 0)
  | spent gone => exact .spent gone
  | pending inTime waited => exact .pending inTime waited
  | failed inTime waited => exact .failed inTime waited
  | missed inTime waited => exact .missed inTime waited
  | @caught left target p snapshot s out inTime waited rest ih =>
    refine .caught inTime waited (ih fun r recorded => ?_)
    have prepended : (out.map (Option.map (Except.map (prepend snapshot))) id).1 =
        some (.ok (prepend snapshot r)) := by
      rw [Prod.map_fst,recorded]
      rfl
    exact Nat.lt_of_succ_lt_succ (stopped _ prepended)

theorem caughtAgain {r : Recording}
    (run : TargetRun rounds settings timeout budget start left target p out)
    (recorded : out.1 = some (.ok r)) (all : r.captured = left) :
    r.timedOut = false ∧ ∀ more longer last,
      targetsFrom rounds settings timeout budget start (more + left) target p =
        (some (.ok longer),last) → r.snapshots <+: longer.snapshots := by
  induction run generalizing r with
  | finished target p =>
    cases recorded
    exact ⟨rfl,fun _ _ _ _ => List.nil_prefix⟩
  | spent gone =>
    cases recorded
    cases all
  | pending inTime waited => cases recorded
  | failed inTime waited => cases recorded
  | missed inTime waited =>
    cases recorded
    cases all
  | @caught left target p snapshot s out inTime waited rest ih =>
    obtain ⟨answer,q⟩ := out
    rcases answer with _ | e | tail <;> cases recorded
    obtain ⟨inBudget,front⟩ := ih rfl (Nat.succ.inj all)
    refine ⟨inBudget,fun more longer last run => ?_⟩
    rw [← Nat.add_assoc,targetExact (.caught inTime waited (targetCases ..))] at run
    rcases later : targetsFrom rounds settings timeout budget start (more + left) (target+1)
      ⟨s,some (UInt32.ofNat target)⟩ with ⟨_ | e | others,q⟩ <;> rw [later] at run <;> cases run
    exact List.cons_prefix_cons.mpr ⟨rfl,front more others q later⟩

variable {fewer more : UInt32} {q : Progress σ}

theorem sequenceStopsAgain {answer : Option (Except ε Recording)} (le : fewer ≤ more)
    (run : sequence rounds settings fewer timeout budget p = (answer,q))
    (stopped : ∀ r, answer = some (.ok r) → r.captured < fewer.toNat) :
    sequence rounds settings more timeout budget p = (answer,q) := by
  obtain ⟨extra,count⟩ := Nat.exists_eq_add_of_le' (UInt32.le_iff_toNat_le.mp le)
  rw [sequence,count]
  exact targetExact (stopsAgain (sequenceRun run) stopped extra)

theorem sequenceCaughtAgain {r : Recording} (le : fewer ≤ more)
    (run : sequence rounds settings fewer timeout budget p =
      ((some (.ok r) : Option (Except ε Recording)),q))
    (all : r.captured = fewer.toNat) :
    r.timedOut = false ∧ ∀ longer last,
      sequence rounds settings more timeout budget p =
        ((some (.ok longer) : Option (Except ε Recording)),last) →
      longer.snapshots.take fewer.toNat = r.snapshots := by
  obtain ⟨extra,count⟩ := Nat.exists_eq_add_of_le' (UInt32.le_iff_toNat_le.mp le)
  obtain ⟨inBudget,front⟩ := caughtAgain (sequenceRun run) rfl all
  refine ⟨inBudget,fun longer last run => ?_⟩
  rw [sequence,count] at run
  rw [← all]
  exact (List.prefix_iff_eq_take.mp (front extra longer last run)).symm

end Targets

section Scenes
open Scene (undated)

variable {settings : Settings} {fewer more : UInt32} {timeout budget : Span}
  {p q : Progress Scene} {dates : Nat → Timestamp}

theorem sequenceDated (dates : Nat → Timestamp) {rounds : Nat}
    {answer : Except CaptureFailure Recording}
    (run : sequence rounds settings more timeout budget p = (some answer,q)) :
    ∃ answer', sequence rounds settings more timeout budget (p.map (Scene.dated dates)) =
        (some answer',q.map (Scene.dated dates)) ∧
      answer'.map (Recording.redated undated) = answer.map (Recording.redated undated) := by
  obtain ⟨answers,ends⟩ := (Scene.datedLockstep dates).sequenceAlong rounds settings more timeout
    budget p
  rw [run] at answers ends
  obtain ⟨answer',same,shows⟩ := Option.map_eq_some_iff.mp answers.symm
  exact ⟨answer',Prod.ext same ends.symm,shows⟩

theorem sequenceUndated {rounds : Nat} {answer : Except CaptureFailure Recording}
    {last : Progress Scene}
    (run : sequence rounds settings more timeout budget (p.map (Scene.dated dates)) =
      (some answer,last)) :
    ∃ own q, sequence rounds settings more timeout budget p = (some own,q) ∧
      own.map (Recording.redated undated) = answer.map (Recording.redated undated) := by
  obtain ⟨answers,_⟩ := (Scene.datedLockstep dates).sequenceAlong rounds settings more timeout
    budget p
  rw [run] at answers
  obtain ⟨own,same,shows⟩ := Option.map_eq_some_iff.mp answers
  exact ⟨own,_,Prod.ext same rfl,shows⟩

/- What a call for `fewer` targets tells of a call for `more` of them, made at the same state
with everything else the same. The captures of the second may be dated differently. -/
structure Extends (settings : Settings) (fewer more : UInt32) (timeout budget : Span)
    (p : Progress Scene) (dates : Nat → Timestamp) : Prop where
  failed : ∀ e q,
    Returns (fun rounds => sequence rounds settings fewer timeout budget p) (.error e) q →
    Returns (fun rounds => sequence rounds settings more timeout budget
      (p.map (Scene.dated dates))) (.error e) (q.map (Scene.dated dates))
  stopped : ∀ r q,
    Returns (fun rounds => sequence rounds settings fewer timeout budget p) (.ok r) q →
    r.captured < fewer.toNat →
    ∃ longer, Returns (fun rounds => sequence rounds settings more timeout budget
        (p.map (Scene.dated dates))) (.ok longer) (q.map (Scene.dated dates)) ∧
      longer.redated undated = r.redated undated
  caught : ∀ r q,
    Returns (fun rounds => sequence rounds settings fewer timeout budget p) (.ok r) q →
    r.captured = fewer.toNat →
    r.timedOut = false ∧ ∀ answer last,
      Returns (fun rounds => sequence rounds settings more timeout budget
        (p.map (Scene.dated dates))) answer last →
      (∃ e, answer = .error e) ∨ ∃ longer, answer = .ok longer ∧
        (longer.snapshots.take fewer.toNat).map (Snapshot.redated undated) =
          r.snapshots.map (Snapshot.redated undated)

theorem moreTargetsExtend (le : fewer ≤ more) (settings : Settings) (timeout budget : Span)
    (p : Progress Scene) (dates : Nat → Timestamp) :
    Extends settings fewer more timeout budget p dates where
  failed := by
    intro e q ⟨rounds,run⟩
    have again := sequenceStopsAgain le run (by simp)
    obtain ⟨answer,dated,shows⟩ := sequenceDated dates again
    rcases answer with other | longer <;> cases shows
    exact ⟨rounds,dated⟩
  stopped := by
    intro r q ⟨rounds,run⟩ few
    have again := sequenceStopsAgain le run fun own same => by cases same; exact few
    obtain ⟨answer,dated,shows⟩ := sequenceDated dates again
    rcases answer with e | longer
    · cases shows
    · exact ⟨longer,⟨rounds,dated⟩,Except.ok.inj shows⟩
  caught := by
    intro r q ⟨rounds,run⟩ all
    refine ⟨(sequenceCaughtAgain le run all).1,fun answer last ⟨others,dated⟩ => ?_⟩
    -- The two calls need not have been followed for the same number of rounds.
    have longRun := sequenceLasts settings fewer timeout budget p rounds (max rounds others) _ _ run
      (Nat.le_max_left _ _)
    have again := sequenceLasts settings more timeout budget _ others (max rounds others) _ _ dated
      (Nat.le_max_right _ _)
    obtain ⟨own,last,plain,shows⟩ := sequenceUndated again
    rcases answer with e | longer
    · exact .inl ⟨e,rfl⟩
    · rcases own with e | recorded
      · cases shows
      · have front := (sequenceCaughtAgain le longRun all).2 recorded last plain
        have same := congrArg Recording.snapshots (Except.ok.inj shows)
        change recorded.snapshots.map _ = longer.snapshots.map _ at same
        exact .inr ⟨longer,rfl,by rw [List.map_take,← same,← List.map_take,front]⟩

end Scenes

def threePane : ScriptedPane :=
  .ofFrames [.ok "[iter 1]",.ok "[iter 1] 0:03",.ok "[iter 2]",.ok "▶ auto",.ok "[iter 3]"]

def threeStart : Progress Scene := ⟨⟨.fake (.startingAt 3),threePane,[],fun _ => .epoch⟩,none⟩

def threeSettings : Settings := ⟨Span.ofMillis 10,Span.ofMillis 5⟩

def firstTwo : Recording :=
  ⟨[Snapshot.ofContent "[iter 1] 0:03" 1 .epoch,Snapshot.ofContent "▶ auto" 2 .epoch],none,false⟩

theorem moreTargetsExtendTwo :
    ∃ q, Returns (fun rounds => sequence rounds threeSettings 2 (Span.ofMillis 40)
        (Span.ofMillis 10) threeStart) (.ok firstTwo) q ∧
      firstTwo.timedOut = false ∧ ∀ answer last,
        Returns (fun rounds => sequence rounds threeSettings 3 (Span.ofMillis 40)
          (Span.ofMillis 10) (threeStart.map (Scene.dated fun _ => .epoch))) answer last →
        (∃ e, answer = .error e) ∨ ∃ longer, answer = .ok longer ∧
          (longer.snapshots.take 2).map (Snapshot.redated Scene.undated) =
            firstTwo.snapshots.map (Snapshot.redated Scene.undated) := by
  have le : (2 : UInt32) ≤ 3 := by decide
  have law := moreTargetsExtend le threeSettings (Span.ofMillis 40) (Span.ofMillis 10) threeStart
    fun _ => .epoch
  have returned : Returns (fun rounds => sequence rounds threeSettings 2 (Span.ofMillis 40)
      (Span.ofMillis 10) threeStart) (.ok firstTwo) _ := ⟨9,Prod.ext (by rfl) rfl⟩
  exact ⟨_,returned,law.caught _ _ returned rfl⟩

end PaneWatch.Watch
