import PaneWatch.Proofs.Session.Alongside
import PaneWatch.Proofs.Time.Millis

/-! Fake time is as good as real time. A session whose sleeps are whole milliseconds reports
the same on a fake clock as on virtual system time, for as long as the time stays below what
a fake clock can count: one step keeps the two sessions in lockstep, and so does a run. -/
namespace PaneWatch

namespace Scene

def Beyond (s : Scene) : Prop := ¬ s.clock.now < Span.ofMillis UInt64.size

theorem neverBeyond {s : Scene} {c : FakeClock} (fake : s.clock = .fake c) : ¬ s.Beyond := by
  intro beyond
  apply beyond
  rw [fake]
  exact Span.ofMillisBelow.mpr c.millis.toNat_lt

theorem beyondKept : Watch.Kept Beyond where
  capture := fun before => before
  sleep := by
    intro s d before below
    cases same : s.clock with
    | fake c => exact neverBeyond same before
    | system c =>
      apply before
      have after : (Stage.sleep d s).clock = .system (c.sleep d) := by
        rw [← Clock.sleep,← same]; rfl
      rw [after] at below
      rw [same]
      exact Span.ltOfLe (c.notBack d) below

structure Twin (f t : Scene) : Prop where
  clocks : ∃ ms : UInt64, f.clock = .fake ⟨ms,true⟩ ∧
    t.clock = .system ⟨Span.ofMillis ms.toNat,Span.zero⟩
  panes : f.pane = t.pane
  quiet : f.timeline = [] ∧ t.timeline = []

namespace Twin

variable {f t : Scene} {d : Span}

theorem sameNow (twin : Twin f t) : f.clock.now = t.clock.now := by
  obtain ⟨ms,fake,system⟩ := twin.clocks
  rw [fake,system,Clock.now,Clock.now,SystemClock.now,Span.sinceZero]
  rfl

theorem moved (twin : Twin f t) {fake system : Clock}
    (counts : ∀ ms : UInt64, f.clock = .fake ⟨ms,true⟩ →
      fake = .fake ⟨Millis.advance ms d,true⟩)
    (times : ∀ ms : UInt64, t.clock = .system ⟨Span.ofMillis ms.toNat,Span.zero⟩ →
      system = .system ⟨Span.ofMillis (ms.toNat + d.millis),Span.zero⟩)
    (below : system.now < Span.ofMillis UInt64.size) :
    Twin { f with clock := fake } { t with clock := system } := by
  obtain ⟨ms,isFake,isSystem⟩ := twin.clocks
  rw [times ms isSystem] at below ⊢
  have fits : ms.toNat + d.millis < UInt64.size := Span.ofMillisBelow.mp below
  refine ⟨⟨Millis.advance ms d,counts ms isFake,?_⟩,twin.panes,twin.quiet⟩
  rw [Millis.advanced fits]

theorem slept (twin : Twin f t) (whole : d.Whole) (within : ¬ Beyond (Stage.sleep d t)) :
    Twin (Stage.sleep d f) (Stage.sleep d t) := by
  have quietF : deliver { f with clock := f.clock.sleep d } = { f with clock := f.clock.sleep d } :=
    deliverNothing twin.quiet.1
  have quietT : deliver { t with clock := t.clock.sleep d } = { t with clock := t.clock.sleep d } :=
    deliverNothing twin.quiet.2
  simp only [Stage.sleep,quietF,quietT] at within ⊢
  refine twin.moved (d := d) ?_ ?_ (Decidable.not_not.mp within)
  · intro ms same
    rw [same]; rfl
  · intro ms same
    rw [same,Clock.sleep,SystemClock.sleep,SystemClock.timerWakes.whole whole]

theorem advanced (twin : Twin f t) (whole : d.Whole) (within : ¬ Beyond (t.advance d)) :
    Twin (f.advance d) (t.advance d) := by
  have quietF : deliver { f with clock := f.clock.advance d } =
      { f with clock := f.clock.advance d } := deliverNothing twin.quiet.1
  have quietT : deliver { t with clock := t.clock.advance d } =
      { t with clock := t.clock.advance d } := deliverNothing twin.quiet.2
  simp only [Scene.advance,quietF,quietT] at within ⊢
  refine twin.moved (d := d) ?_ ?_ (Decidable.not_not.mp within)
  · intro ms same
    rw [same]; rfl
  · intro ms same
    rw [same,Clock.advance,SystemClock.advance,Span.ofMillisAdd whole]

end Twin

theorem twinSharesPane : SharesPane Twin where
  same := Twin.panes
  changed := fun change twin => ⟨twin.clocks,congrArg change twin.panes,twin.quiet⟩

theorem twinLockstep : Watch.Lockstep Eq Span.Whole undated Beyond Twin where
  reading := Twin.sameNow
  passed := by
    rintro a b c d rfl rfl
    rfl
  capture := by
    intro f t twin
    refine ⟨?_,twinSharesPane.changed (fun p => p.capture.2) twin⟩
    exact congrArg (fun p => (ScriptedPane.capture p).1) twin.panes
  sleep := fun whole twin within => twin.slept whole within
  dated := fun _ => rfl
  lost := beyondKept

end Scene

def Settings.Whole (s : Settings) : Prop := s.pollInterval.Whole ∧ s.captureDelay.Whole
instance (s : Settings) : Decidable s.Whole := by unfold Settings.Whole; infer_instance

namespace Session
open Scene (undated)

/- Timeouts and budgets may be any spans: only what is slept has to be whole. -/
def Op.Whole : Op → Prop
  | .termination _ poll => poll.Whole
  | .processExit _ poll => poll.Whole
  | .advance d => d.Whole
  | .rebuild chosen => chosen.Whole
  | _ => True

instance : (op : Op) → Decidable op.Whole
  | .termination _ poll => inferInstanceAs (Decidable poll.Whole)
  | .processExit _ poll => inferInstanceAs (Decidable poll.Whole)
  | .advance d => inferInstanceAs (Decidable d.Whole)
  | .rebuild chosen => inferInstanceAs (Decidable chosen.Whole)
  | .wait .. | .sequence .. | .push _ | .capture | .noteExitCode _ | .settings => isTrue trivial

theorem twinsTreated {a b : Session} (twins : Alongside Scene.Twin a b) {rounds : Nat} {op : Op}
    (whole : a.settings.Whole) (wholeOp : op.Whole)
    (within : ¬ (b.step rounds op).2.scene.Beyond) : op.TreatsAlike Scene.Twin rounds a b := by
  have law := Scene.twinLockstep
  cases op with
  | wait n timeout =>
    simp only [Session.step,← twins.settings] at within
    exact law.wait rounds n timeout whole.1 whole.2 twins.scenes within
  | sequence lastTarget timeout budget =>
    simp only [Session.step,← twins.settings] at within
    exact law.sequence rounds lastTarget timeout budget whole.1 whole.2
      ⟨twins.scenes,twins.targets⟩ within
  | termination timeout poll => exact law.termination rounds timeout wholeOp twins.scenes within
  | processExit timeout poll => exact law.processExit rounds timeout wholeOp twins.scenes within
  | advance d => exact twins.scenes.advanced wholeOp within
  | _ => trivial

theorem stepWhole (rounds : Nat) {a : Session} {op : Op} (whole : a.settings.Whole)
    (wholeOp : op.Whole) : (a.step rounds op).2.settings.Whole := by
  cases op with
  | rebuild settings => exact wholeOp
  | _ => exact whole

/- No clock value reached within `rounds` rounds for each wait is past what a fake clock counts. -/
def InCount (s : Session) (rounds : Nat) (ops : List Op) : Prop :=
  ∀ row ∈ s.run rounds ops, row.2.scene.clock.now < Span.ofMillis UInt64.size

theorem inCountStep {s : Session} {rounds : Nat} {op : Op} {ops : List Op}
    (below : s.InCount rounds (op::ops)) : ¬ (s.step rounds op).2.scene.Beyond ∧
      ((s.step rounds op).1.isSome = true → (s.step rounds op).2.InCount rounds ops) := by
  unfold InCount run at below
  rcases step : s.step rounds op with ⟨_ | answer,t⟩ <;> rw [step] at below
  · exact ⟨fun beyond => beyond (below _ List.mem_cons_self),fun answered => by cases answered⟩
  · exact ⟨fun beyond => beyond (below _ List.mem_cons_self),
      fun _ row mem => below row (List.mem_cons_of_mem _ mem)⟩

theorem runReports {rounds : Nat} {ops : List Op} {a b : Session}
    (twins : Alongside Scene.Twin a b) (whole : a.settings.Whole)
    (wholeOps : ∀ op ∈ ops, op.Whole) (below : b.InCount rounds ops) :
    (a.run rounds ops).map report = (b.run rounds ops).map report := by
  have rows := runAlongside Scene.twinSharesPane rounds
    (fun a b ops => a.settings.Whole ∧ (∀ op ∈ ops, op.Whole) ∧ b.InCount rounds ops)
    (fun twins ⟨whole,wholeOps,below⟩ =>
      twinsTreated twins whole (wholeOps _ List.mem_cons_self) (inCountStep below).1)
    (fun ⟨whole,wholeOps,below⟩ returned =>
      ⟨stepWhole rounds whole (wholeOps _ List.mem_cons_self),
        fun op mem => wholeOps op (List.mem_cons_of_mem _ mem),(inCountStep below).2 returned⟩)
    twins ⟨whole,wholeOps,below⟩
  rw [← List.forall₂_eq_eq_eq,List.forall₂_map_left_iff,List.forall₂_map_right_iff]
  refine rows.imp fun row other alike => ?_
  simp only [report,alike.1,alike.2.scenes.sameNow,alike.2.scenes.panes,alike.2.targets]

theorem returnsAlike {a b : Session} {rounds : Nat} {ops : List Op} {i row}
    (same : (a.run rounds ops).map report = (b.run rounds ops).map report)
    (place : (a.run rounds ops)[i]? = some row) (answered : row.1.isSome = true) :
    b.Returns ops i := by
  have answers := congrArg (List.map fun r : Report => r.answer.isSome) same
  simp only [List.map_map,Function.comp_def,report,Option.isSome_map] at answers
  exact returnsAsWell answers place answered

def onFake (pane : ScriptedPane) (settings : Settings) (dates : Nat → Timestamp) : Session :=
  start (.start (.fake (.startingAt 0)) pane [] dates) settings

def onSystem (pane : ScriptedPane) (settings : Settings) (dates : Nat → Timestamp) : Session :=
  start (.start (.system ⟨Span.zero,Span.zero⟩) pane [] dates) settings

theorem startTwins (pane : ScriptedPane) (settings : Settings)
    (fakeDates systemDates : Nat → Timestamp) :
    Alongside Scene.Twin (onFake pane settings fakeDates) (onSystem pane settings systemDates) := by
  unfold onFake onSystem
  rw [Scene.startQuiet,Scene.startQuiet]
  exact ⟨⟨⟨0,rfl,rfl⟩,rfl,rfl,rfl⟩,rfl,rfl,rfl⟩

/- The reports are the same one by one, for each number of rounds at which both runs are looked
at: those of the operations that returned, and that of one which is still going on. -/
theorem fakeTimeFaithful {pane : ScriptedPane} {settings : Settings} {ops : List Op}
    {fakeDates systemDates : Nat → Timestamp} (whole : settings.Whole)
    (wholeOps : ∀ op ∈ ops, op.Whole) :
    (∀ rounds, (onSystem pane settings systemDates).InCount rounds ops →
      ((onFake pane settings fakeDates).run rounds ops).map report =
        ((onSystem pane settings systemDates).run rounds ops).map report) ∧
    ((∀ rounds, (onSystem pane settings systemDates).InCount rounds ops) → ∀ i,
      (onFake pane settings fakeDates).Returns ops i ↔
        (onSystem pane settings systemDates).Returns ops i) := by
  have same : ∀ rounds, (onSystem pane settings systemDates).InCount rounds ops →
      ((onFake pane settings fakeDates).run rounds ops).map report =
        ((onSystem pane settings systemDates).run rounds ops).map report :=
    fun rounds below =>
      runReports (startTwins pane settings fakeDates systemDates) whole wholeOps below
  refine ⟨same,fun below i => ⟨?_,?_⟩⟩
  · rintro ⟨rounds,row,place,answered⟩
    exact returnsAlike (same rounds (below rounds)) place answered
  · rintro ⟨rounds,row,place,answered⟩
    exact returnsAlike (same rounds (below rounds)).symm place answered

def lossyPane : ScriptedPane :=
  .ofFrames [.ok "[iter 1] 0:05",.ok "[iter 2]",.error ⟨"lost"⟩]

def lossySettings : Settings := ⟨Span.ofMillis 5,Span.ofMillis 20⟩

def lossyOps : List Op :=
  [.wait 1 (Span.ofParts 0 1),.advance (Span.ofMillis 7),
    .termination (Span.ofMillis 9) (Span.ofMillis 4),.push "2",.wait 3 (Span.ofMillis 12)]

theorem lossyInCount (rounds : Nat) :
    (onSystem lossyPane lossySettings fun _ => .epoch).InCount rounds lossyOps := by
  unfold InCount onSystem
  rw [Scene.startQuiet]
  have few : ∀ n ≤ 4, ∀ row ∈
      (start ⟨.system ⟨Span.zero,Span.zero⟩,lossyPane,[],fun _ => .epoch⟩ lossySettings).run n
        lossyOps, row.2.scene.clock.now < Span.ofMillis UInt64.size := by decide +kernel
  rcases Nat.le_or_ge rounds 4 with le | ge
  · exact few rounds le
  · obtain ⟨more,rfl⟩ := Nat.exists_eq_add_of_le' ge
    have enough : (start ⟨.system ⟨Span.zero,Span.zero⟩,lossyPane,[],fun _ => .epoch⟩
        lossySettings).run (more+4) lossyOps =
      (start ⟨.system ⟨Span.zero,Span.zero⟩,lossyPane,[],fun _ => .epoch⟩ lossySettings).run 4
        lossyOps := rfl
    rw [enough]
    exact few 4 (Nat.le_refl 4)

theorem fakeTimeFaithfulLossy :
    (∀ rounds, ((onFake lossyPane lossySettings fun _ => .epoch).run rounds lossyOps).map report =
      ((onSystem lossyPane lossySettings fun _ => .epoch).run rounds lossyOps).map report) ∧
    ∀ i, (onFake lossyPane lossySettings fun _ => .epoch).Returns lossyOps i ↔
      (onSystem lossyPane lossySettings fun _ => .epoch).Returns lossyOps i := by
  have whole : lossySettings.Whole := by decide
  have wholeOps : ∀ op ∈ lossyOps, op.Whole := by decide
  obtain ⟨reports,returns⟩ := fakeTimeFaithful whole wholeOps
  exact ⟨fun rounds => reports rounds (lossyInCount rounds),returns lossyInCount⟩

end Session
end PaneWatch
