import PaneWatch.Proofs.Session.Alongside
import PaneWatch.Proofs.Session.Steady

/-! What a session reports does not depend on the time at which its clock was started, as long
as nothing wraps the count: every deadline is a difference of two readings. The later of two
clocks is the one that could wrap first, so its session is the one that is gauged. -/
namespace PaneWatch

namespace Scene

structure Shifted (first second : UInt64) (autoAdvance : Bool) (f t : Scene) : Prop where
  clocks : ∃ m n : UInt64, f.clock = .fake ⟨m,autoAdvance⟩ ∧ t.clock = .fake ⟨n,autoAdvance⟩ ∧
    m.toNat + second.toNat = n.toNat + first.toNat
  panes : f.pane = t.pane
  quiet : f.timeline = [] ∧ t.timeline = []

variable {first second : UInt64} {autoAdvance : Bool}

theorem shiftedSharesPane : SharesPane (Shifted first second autoAdvance) where
  same := Shifted.panes
  changed := fun change pair => ⟨pair.clocks,congrArg change pair.panes,pair.quiet⟩

namespace Shifted

variable {f t : Scene}

theorem symm (pair : Shifted first second autoAdvance f t) :
    Shifted second first autoAdvance t f := by
  obtain ⟨m,n,early,late,apart⟩ := pair.clocks
  exact ⟨⟨n,m,late,early,apart.symm⟩,pair.panes.symm,pair.quiet.2,pair.quiet.1⟩

theorem readings (pair : Shifted first second autoAdvance f t) :
    f.clock.now.nanos + (Millis.now second).nanos =
      t.clock.now.nanos + (Millis.now first).nanos := by
  obtain ⟨m,n,early,late,apart⟩ := pair.clocks
  rw [early,late]
  simp only [Clock.now,FakeClock.now,Millis.now,Span.nanos_ofMillis]
  omega

theorem advanced (later : first ≤ second) (pair : Shifted first second autoAdvance f t) {d : Span}
    (steady : ¬ (t.clock.advance d).now < t.clock.now) :
    Shifted first second autoAdvance { f with clock := f.clock.advance d }
      { t with clock := t.clock.advance d } := by
  obtain ⟨m,n,early,late,apart⟩ := pair.clocks
  rw [late] at steady
  have started : first.toNat ≤ second.toNat := UInt64.le_iff_toNat_le.mp later
  have lateSteady : ¬ Millis.now (Millis.advance n d) < Millis.now n := steady
  have earlySteady : ¬ Millis.now (Millis.advance m d) < Millis.now m := by
    rw [Millis.wraps] at lateSteady ⊢
    omega
  have lateMoved := Millis.onward lateSteady
  have earlyMoved := Millis.onward earlySteady
  rw [early,late]
  refine ⟨⟨Millis.advance m d,Millis.advance n d,rfl,rfl,?_⟩,pair.panes,pair.quiet⟩
  omega

theorem delivered (pair : Shifted first second autoAdvance f t) :
    Shifted first second autoAdvance f.deliver t.deliver := by
  rw [deliverNothing pair.quiet.1,deliverNothing pair.quiet.2]
  exact pair

theorem slept (later : first ≤ second) (pair : Shifted first second autoAdvance f t) {d : Span}
    (steady : ¬ Stage.now (Stage.sleep d t) < Stage.now t) :
    Shifted first second autoAdvance (Stage.sleep d f) (Stage.sleep d t) := by
  obtain ⟨m,n,early,late,_⟩ := pair.clocks
  cases autoAdvance with
  | false =>
    have still : f.clock.sleep d = f.clock ∧ t.clock.sleep d = t.clock := by
      rw [early,late]
      exact ⟨rfl,rfl⟩
    simp only [Stage.sleep,still]
    exact pair.delivered
  | true =>
    have moves : f.clock.sleep d = f.clock.advance d ∧ t.clock.sleep d = t.clock.advance d := by
      rw [early,late]
      exact ⟨rfl,rfl⟩
    simp only [Stage.sleep,Stage.now,moves,deliver] at steady ⊢
    exact (pair.advanced later steady).delivered

end Shifted

theorem shiftedLockstep (later : first ≤ second) (autoAdvance : Bool) : Watch.Lockstep
    (fun a b => a.nanos + (Millis.now second).nanos = b.nanos + (Millis.now first).nanos)
    (fun _ => True) undated (fun g : Gauge Scene => g.wrapped = true)
    (fun f g => Shifted first second autoAdvance f g.stage) where
  reading := Shifted.readings
  passed := by
    intro a b c d began read
    ext
    simp only [Span.nanos_sub]
    omega
  capture := by
    intro f g pair
    refine ⟨?_,shiftedSharesPane.changed (fun p => p.capture.2) pair⟩
    exact congrArg (fun p => (ScriptedPane.capture p).1) pair.panes
  sleep := fun _ pair steady => pair.slept later (Gauge.notTurnedBack steady)
  dated := fun _ => rfl
  lost := Gauge.wrappedKept

end Scene

namespace Session
open Scene (undated)
open Watch.Lockstep (Beside)

variable {first second : UInt64} {autoAdvance : Bool}

theorem shiftedTreated {a b : Session} (later : first ≤ second)
    (pair : Alongside (Scene.Shifted first second autoAdvance) a b) {rounds : Nat} {op : Op}
    (steady : b.wraps rounds op = false) :
    op.TreatsAlike (Scene.Shifted first second autoAdvance) rounds a b := by
  -- The first session is in lockstep with the second as it is gauged, and that with the second.
  have law := Scene.shiftedLockstep later autoAdvance
  have scenes : Scene.Shifted first second autoAdvance a.scene (Gauge.start b.scene).stage :=
    pair.scenes
  rw [← Bool.not_eq_true] at steady
  cases op with
  | wait n timeout =>
    simp only [wraps,← pair.settings] at steady
    obtain ⟨answers,after⟩ := law.wait rounds n timeout trivial trivial scenes steady
    obtain ⟨shown,left⟩ := Gauge.waitGauged undated rounds b.scene a.settings n timeout
    exact ⟨answers.trans shown,left ▸ after⟩
  | sequence lastTarget timeout budget =>
    simp only [wraps,← pair.settings] at steady
    have beside : Beside
        (fun f (g : Gauge Scene) => Scene.Shifted first second autoAdvance f g.stage)
        ⟨a.scene,a.lastIteration⟩ ⟨Gauge.start b.scene,b.lastIteration⟩ := ⟨scenes,pair.targets⟩
    obtain ⟨answers,after,targets⟩ :=
      law.sequence rounds lastTarget timeout budget trivial trivial beside steady
    obtain ⟨shown,left⟩ := Gauge.sequenceGauged undated rounds b.scene a.settings lastTarget timeout
      budget b.lastIteration
    exact ⟨answers.trans shown,left ▸ after,left ▸ targets⟩
  | termination timeout poll =>
    obtain ⟨answers,after⟩ := law.termination rounds timeout trivial scenes steady
    rw [Op.TreatsAlike,← Gauge.terminationGauged rounds b.scene]
    exact ⟨answers,after⟩
  | processExit timeout poll =>
    obtain ⟨answers,after⟩ := law.processExit rounds timeout trivial scenes steady
    rw [Op.TreatsAlike,← Gauge.processExitGauged rounds b.scene]
    exact ⟨answers,after⟩
  | advance d =>
    have onward : ¬ (b.scene.advance d).clock.now < b.scene.clock.now := fun back =>
      steady (decide_eq_true back)
    exact (pair.scenes.advanced later onward).delivered
  | _ => trivial

theorem laterRows {a b : Session} (later : first ≤ second)
    (pair : Alongside (Scene.Shifted first second autoAdvance) a b) {rounds : Nat} {ops : List Op}
    (steady : Steady rounds b ops) :
    List.Forall₂ (RowsAlike (Scene.Shifted first second autoAdvance)) (a.run rounds ops)
      (b.run rounds ops) :=
  runAlongside Scene.shiftedSharesPane rounds (fun _ b ops => Steady rounds b ops)
    (fun pair steady => shiftedTreated later pair steady.1)
    (fun steady returned => steady.2 returned) pair steady

def onCounter (clock : FakeClock) (pane : ScriptedPane) (settings : Settings)
    (dates : Nat → Timestamp) : Session :=
  start (.start (.fake clock) pane [] dates) settings

theorem startShifted (first second : UInt64) (autoAdvance : Bool) (pane : ScriptedPane)
    (settings : Settings) (dates dates' : Nat → Timestamp) :
    Alongside (Scene.Shifted first second autoAdvance)
      (onCounter ⟨first,autoAdvance⟩ pane settings dates)
      (onCounter ⟨second,autoAdvance⟩ pane settings dates') := by
  unfold onCounter
  rw [Scene.startQuiet,Scene.startQuiet]
  exact ⟨⟨⟨first,second,rfl,rfl,Nat.add_comm _ _⟩,rfl,rfl,rfl⟩,rfl,rfl,rfl⟩

theorem shiftedRows {pane : ScriptedPane} {settings : Settings} {ops : List Op} {rounds : Nat}
    {dates dates' : Nat → Timestamp}
    (early : Steady rounds (onCounter ⟨first,autoAdvance⟩ pane settings dates) ops)
    (late : Steady rounds (onCounter ⟨second,autoAdvance⟩ pane settings dates') ops) :
    List.Forall₂ (RowsAlike (Scene.Shifted first second autoAdvance))
      ((onCounter ⟨first,autoAdvance⟩ pane settings dates).run rounds ops)
      ((onCounter ⟨second,autoAdvance⟩ pane settings dates').run rounds ops) := by
  rcases UInt64.le_total first second with later | later
  · exact laterRows later (startShifted ..) late
  · have start := startShifted second first autoAdvance pane settings dates' dates
    have rows := laterRows later start early
    exact rows.flip.imp fun _ _ => RowsAlike.flipped Scene.Shifted.symm

/- Two reports that differ in the reading of the clock alone, and there as the start times do. -/
structure Report.Apart (first second : UInt64) (x y : Report) : Prop where
  same : y = { x with now := y.now }
  clocks : ∃ m n : UInt64, x.now = Millis.now m ∧ y.now = Millis.now n ∧
    (n.toNat : Int) - m.toNat = second.toNat - first.toNat

theorem reportsApart {x y : Option Answer × Session}
    (alike : RowsAlike (Scene.Shifted first second autoAdvance) x y) :
    Report.Apart first second (report x) (report y) := by
  obtain ⟨answers,pair⟩ := alike
  obtain ⟨m,n,early,late,apart⟩ := pair.scenes.clocks
  refine ⟨by simp only [report,answers,pair.scenes.panes,pair.targets],m,n,?_,?_,by omega⟩
  · simp only [report,early,Clock.now,FakeClock.now]
  · simp only [report,late,Clock.now,FakeClock.now]

theorem startTimeImmaterial {pane : ScriptedPane} {settings : Settings} {ops : List Op}
    {first second : UInt64} {autoAdvance : Bool} {dates dates' : Nat → Timestamp} :
    (∀ rounds, Steady rounds (onCounter ⟨first,autoAdvance⟩ pane settings dates) ops →
      Steady rounds (onCounter ⟨second,autoAdvance⟩ pane settings dates') ops →
      List.Forall₂ (Report.Apart first second)
        (((onCounter ⟨first,autoAdvance⟩ pane settings dates).run rounds ops).map report)
        (((onCounter ⟨second,autoAdvance⟩ pane settings dates').run rounds ops).map report)) ∧
    ((∀ rounds, Steady rounds (onCounter ⟨first,autoAdvance⟩ pane settings dates) ops ∧
        Steady rounds (onCounter ⟨second,autoAdvance⟩ pane settings dates') ops) → ∀ i,
      (onCounter ⟨first,autoAdvance⟩ pane settings dates).Returns ops i ↔
        (onCounter ⟨second,autoAdvance⟩ pane settings dates').Returns ops i) := by
  refine ⟨fun rounds early late => ?_,fun steady i => ⟨?_,?_⟩⟩
  · rw [List.forall₂_map_left_iff,List.forall₂_map_right_iff]
    exact (shiftedRows early late).imp fun _ _ => reportsApart
  · intro ⟨rounds,row,place,answered⟩
    have rows := shiftedRows (steady rounds).1 (steady rounds).2
    exact returnsAsWell (rowsReturn rows) place answered
  · intro ⟨rounds,row,place,answered⟩
    have rows := shiftedRows (steady rounds).1 (steady rounds).2
    exact returnsAsWell (rowsReturn rows).symm place answered

def nightPane : ScriptedPane :=
  .ofFrames [.ok "[iter 1] 0:05",.ok "[iter 2]",.ok "▶ auto",.error ⟨"lost"⟩,.ok "$"]

def nightOps : List Op :=
  [.wait 2 (Span.ofMillis 12),.advance (Span.ofParts 0 7999999),
    .sequence 2 (Span.ofMillis 40) (Span.ofMillis 30),.rebuild ⟨Span.ofMillis 3,Span.zero⟩,
    .wait 3 (Span.ofMillis 5)]

def night (clock : FakeClock) : Session :=
  onCounter clock nightPane ⟨Span.ofMillis 5,Span.ofMillis 20⟩ fun _ => .epoch

theorem nightSteady (rounds : Nat) : Steady rounds (night (.startingAt 1000)) nightOps ∧
    Steady rounds (night (.startingAt 18446744073709551556)) nightOps := by
  have few : ∀ n ≤ 4, Steady n (night (.startingAt 1000)) nightOps ∧
      Steady n (night (.startingAt 18446744073709551556)) nightOps := by decide +kernel
  have answered : (∀ row ∈ (night (.startingAt 1000)).run 4 nightOps, row.1.isSome = true) ∧
      ∀ row ∈ (night (.startingAt 18446744073709551556)).run 4 nightOps,
        row.1.isSome = true := by decide +kernel
  rcases Nat.le_total rounds 4 with le | ge
  · exact few rounds le
  · obtain ⟨early,late⟩ := few 4 (Nat.le_refl 4)
    exact ⟨steadyLasts early answered.1 ge,steadyLasts late answered.2 ge⟩

theorem startTimeImmaterialNight :
    (∀ rounds, List.Forall₂ (Report.Apart 1000 18446744073709551556)
      (((night (.startingAt 1000)).run rounds nightOps).map report)
      (((night (.startingAt 18446744073709551556)).run rounds nightOps).map report)) ∧
    ∀ i, (night (.startingAt 1000)).Returns nightOps i ↔
      (night (.startingAt 18446744073709551556)).Returns nightOps i := by
  obtain ⟨reports,returns⟩ := @startTimeImmaterial nightPane ⟨Span.ofMillis 5,Span.ofMillis 20⟩
    nightOps 1000 18446744073709551556 true (fun _ => .epoch) (fun _ => .epoch)
  exact ⟨fun rounds => reports rounds (nightSteady rounds).1 (nightSteady rounds).2,
    returns nightSteady⟩

end Session
end PaneWatch
