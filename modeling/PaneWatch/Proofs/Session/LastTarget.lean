import Mathlib.Data.List.Forall2
import Mathlib.Order.Bounds.Defs
import PaneWatch.Proofs.Watch.Outcome

/-! The last target a session remembers. A sequence catches as many targets as its longest trail
has snapshots, however it ends, and remembers the last of them; nothing else a watcher can be
asked for touches what it remembers. So the calls of a session come with a list of counts, and
what is remembered after them is the last count that is not zero. -/
namespace PaneWatch

namespace Watch

variable {σ ε : Type} [Stage σ ε]

def Catches (rounds : Nat) (settings : Settings) (timeout budget start : Span)
    (left target : Nat) (s : σ) (k : Nat) : Prop :=
  IsGreatest {k | k ≤ left ∧ ∃ snapshots stops,
    Trail rounds settings timeout budget start target s snapshots stops ∧
      snapshots.length = k} k

variable {rounds : Nat} {settings : Settings} {timeout budget start : Span} {left target k : Nat}
  {s t : σ}

theorem catchesNone
    (stuck : ∀ snapshot t, ¬ budget ≤ Stage.elapsedSince start s →
      wait rounds settings (UInt32.ofNat target)
        (timeout.shorter (budget - Stage.elapsedSince start s)) s ≠
          (some (.ok (some snapshot)),t)) :
    Catches rounds settings timeout budget start left target s 0 := by
  refine ⟨⟨Nat.zero_le _,[],[],.nil _ _,rfl⟩,?_⟩
  rintro _ ⟨_,snapshots,stops,trail,rfl⟩
  cases trail with
  | nil => exact Nat.le_refl 0
  | cons inTime waited rest => exact absurd waited (stuck _ _ inTime)

theorem catchesMore {snapshot : Snapshot} (inTime : ¬ budget ≤ Stage.elapsedSince start s)
    (waited : wait rounds settings (UInt32.ofNat target)
      (timeout.shorter (budget - Stage.elapsedSince start s)) s =
        (some (.ok (some snapshot)),t))
    (rest : Catches rounds settings timeout budget start left (target+1) t k) :
    Catches rounds settings timeout budget start (left+1) target s (k+1) := by
  obtain ⟨⟨le,snapshots,stops,trail,count⟩,most⟩ := rest
  refine ⟨⟨Nat.succ_le_succ le,snapshot::snapshots,t::stops,.cons inTime waited trail,
    by rw [List.length_cons,count]⟩,?_⟩
  rintro _ ⟨few,_,_,other,rfl⟩
  cases other with
  | nil => exact Nat.zero_le _
  | cons _ again others =>
    rw [waited] at again
    cases again
    exact Nat.succ_le_succ (most ⟨Nat.le_of_succ_le_succ few,_,_,others,rfl⟩)

def remembered (target : Nat) (last : Option UInt32) : Nat → Option UInt32
  | 0 => last
  | k+1 => some (UInt32.ofNat (target + k))

theorem rememberedOne (target k : Nat) (last : Option UInt32) :
    remembered (target+1) (some (UInt32.ofNat target)) k = remembered target last (k+1) := by
  cases k with
  | zero => rfl
  | succ k => simp only [remembered,Nat.add_assoc,Nat.add_comm 1 k]

theorem runCatches {p : Progress σ} {out : Option (Except ε Recording) × Progress σ}
    (run : TargetRun rounds settings timeout budget start left target p out) :
    ∃ k, Catches rounds settings timeout budget start left target p.stage k ∧
      out.2.lastIteration = remembered target p.lastIteration k ∧
      ∀ r, out.1 = some (.ok r) → r.captured = k := by
  induction run with
  | finished target p =>
    refine ⟨0,⟨⟨Nat.le_refl 0,[],[],.nil _ _,rfl⟩,fun _ few => few.1⟩,rfl,fun r recorded => ?_⟩
    cases recorded
    rfl
  | spent gone =>
    refine ⟨0,catchesNone fun _ _ inTime => absurd gone inTime,rfl,fun r recorded => ?_⟩
    cases recorded
    rfl
  | pending inTime waited =>
    refine ⟨0,catchesNone fun _ _ _ => ?_,rfl,nofun⟩
    rw [waited]
    nofun
  | failed inTime waited =>
    refine ⟨0,catchesNone fun _ _ _ => ?_,rfl,nofun⟩
    rw [waited]
    nofun
  | missed inTime waited =>
    refine ⟨0,catchesNone fun _ _ _ => ?_,rfl,fun r recorded => ?_⟩
    · rw [waited]
      nofun
    · cases recorded
      rfl
  | @caught left target p snapshot s out inTime waited rest ih =>
    obtain ⟨k,catches,last,count⟩ := ih
    refine ⟨k+1,catchesMore inTime waited catches,last.trans (rememberedOne target k _),
      fun r recorded => ?_⟩
    obtain ⟨answer,_⟩ := out
    rcases answer with _ | e | tail <;> cases recorded
    exact congrArg (· + 1) (count tail rfl)

theorem rememberedCount {lastTarget : UInt32} {last : Option UInt32} (le : k ≤ lastTarget.toNat)
    (caught : 0 < k) : (remembered 1 last k).map UInt32.toNat = some k := by
  cases k with
  | zero => cases caught
  | succ k =>
    have small : lastTarget.toNat < UInt32.size := lastTarget.toNat_lt
    rw [remembered,Option.map_some,targetCount (by omega)]

theorem sequenceCatches (rounds : Nat) (settings : Settings) (lastTarget : UInt32)
    (timeout budget : Span) (p : Progress σ) :
    let out := sequence rounds settings lastTarget timeout budget p
    ∃ k, Catches rounds settings timeout budget (Stage.now p.stage) lastTarget.toNat 1 p.stage k ∧
      (k = 0 → out.2.lastIteration = p.lastIteration) ∧
      (0 < k → out.2.lastIteration.map UInt32.toNat = some k) ∧
      ∀ r, out.1 = some (.ok r) → r.captured = k := by
  intro out
  obtain ⟨k,catches,last,count⟩ := runCatches (sequenceRun (rfl : _ = out))
  refine ⟨k,catches,fun none => ?_,fun caught => ?_,count⟩
  · rw [last,none]
    rfl
  · rw [last]
    exact rememberedCount catches.1.1 caught

end Watch

namespace Session

structure Call where
  before : Session
  op : Op
  answer : Option Answer
  after : Session

def calls (rounds : Nat) (s : Session) : List Op → List Call
  | [] => []
  | op::ops =>
    match s.step rounds op with
    | (none,t) => [⟨s,op,none,t⟩]
    | (some answer,t) => ⟨s,op,some answer,t⟩::calls rounds t ops

def atEnd (rounds : Nat) (s : Session) (ops : List Op) : Session :=
  ((s.run rounds ops).map Prod.snd).getLastD s

def Op.isRebuild : Op → Bool
  | .rebuild _ => true
  | _ => false

def Op.isSequence : Op → Bool
  | .sequence .. => true
  | _ => false

namespace Call

def Captured (rounds : Nat) (c : Call) (k : Nat) : Prop :=
  match c.op with
  | .sequence lastTarget timeout budget =>
    Watch.Catches rounds c.before.settings timeout budget (Stage.now c.before.scene)
      lastTarget.toNat 1 c.before.scene k
  | _ => k = 0

theorem capturedOther {rounds : Nat} {c : Call} (other : c.op.isSequence = false) {k : Nat} :
    c.Captured rounds k ↔ k = 0 := by
  obtain ⟨before,op,answer,after⟩ := c
  cases op with
  | sequence => cases other
  | _ => exact Iff.rfl

/- What a call that captured `k` targets leaves: of one that failed only the count is left, the
recording of the session is the one from before. -/
structure Remembers (rounds : Nat) (c : Call) (k : Nat) : Prop where
  count : c.Captured rounds k
  idle : k = 0 → c.after.lastIteration = c.before.lastIteration
  caught : 0 < k → c.after.lastIteration.map UInt32.toNat = some k
  recorded : ∀ r, c.answer = some (.recorded r) → r.captured = k
  lost : ∀ e, c.answer = some (.failed e) → c.after.recording = c.before.recording

end Call

theorem answeredRecorded {answer : Option (Except CaptureFailure Recording)} {r : Recording}
    (same : answer.map (answerOf .recorded) = some (.recorded r)) : answer = some (.ok r) := by
  rcases answer with _ | e | recorded <;> cases same
  rfl

theorem failureKeepsRecording {r : Recording}
    {answer : Option (Except CaptureFailure Recording)} {e : CaptureFailure}
    (failed : answer.map (answerOf .recorded) = some (.failed e)) :
    recordingAfter r answer = r := by
  rcases answer with _ | e | recorded <;> cases failed
  rfl

theorem sceneRemembers {α : Type} (ok : α → Answer) (out : Option (Except CaptureFailure α) × Scene)
    {rounds : Nat} {s : Session} {op : Op} (other : ∀ a r, ok a ≠ .recorded r)
    (notSequence : op.isSequence = false)
    (stepped : s.step rounds op = out.map (Option.map (answerOf ok)) s.withScene) :
    Call.Remembers rounds ⟨s,op,(s.step rounds op).1,(s.step rounds op).2⟩ 0 := by
  rw [stepped]
  refine ⟨(Call.capturedOther notSequence).mpr rfl,fun _ => rfl,nofun,fun r recorded => ?_,
    fun _ _ => rfl⟩
  obtain ⟨_ | e | a,scene⟩ := out
  · cases recorded
  · cases recorded
  · exact absurd (Option.some.inj recorded) (other a r)

theorem stepRemembers (rounds : Nat) (s : Session) {op : Op} (same : op.isRebuild = false) :
    ∃ k, Call.Remembers rounds ⟨s,op,(s.step rounds op).1,(s.step rounds op).2⟩ k := by
  cases op with
  | sequence lastTarget timeout budget =>
    obtain ⟨k,catches,idle,caught,count⟩ := Watch.sequenceCatches rounds s.settings lastTarget
      timeout budget ⟨s.scene,s.lastIteration⟩
    exact ⟨k,catches,idle,caught,fun r recorded => count r (answeredRecorded recorded),
      fun e failed => failureKeepsRecording failed⟩
  | wait n timeout =>
    exact ⟨0,sceneRemembers .waited (Watch.wait rounds s.settings n timeout s.scene)
      (fun _ _ same => by cases same) rfl rfl⟩
  | termination timeout poll =>
    exact ⟨0,sceneRemembers (fun last => .ended last.1 last.2)
      (Watch.termination rounds timeout poll s.scene) nofun rfl rfl⟩
  | processExit timeout poll =>
    exact ⟨0,sceneRemembers (fun last => .exited last.1 last.2)
      (Watch.processExit rounds timeout poll s.scene) nofun rfl rfl⟩
  | capture =>
    exact ⟨0,sceneRemembers .captured ((Stage.capture s.scene).map some id) nofun rfl rfl⟩
  | rebuild settings => cases same
  | noteExitCode text => exact ⟨0,rfl,fun _ => rfl,nofun,nofun,nofun⟩
  | _ => exact ⟨0,rfl,fun _ => rfl,nofun,nofun,nofun⟩

theorem callsRun (rounds : Nat) (s : Session) (ops : List Op) :
    (s.calls rounds ops).map (fun c => (c.answer,c.after)) = s.run rounds ops := by
  induction ops generalizing s with
  | nil => rfl
  | cons op ops ih =>
    rw [calls,run]
    rcases s.step rounds op with ⟨_ | answer,t⟩
    · rfl
    · exact congrArg _ (ih t)

def latest (counts : List Nat) : Option Nat := (counts.filter fun k => 0 < k).getLast?

theorem latestCons (k : Nat) (counts : List Nat) :
    latest (k::counts) = (latest counts).or (latest [k]) := by
  unfold latest
  rw [← List.singleton_append,List.filter_append,List.getLast?_append]

theorem latestOne {k : Nat} (caught : 0 < k) : latest [k] = some k := by
  simp only [latest,List.filter_cons,caught,decide_true,↓reduceIte,List.filter_nil,
    List.getLast?_singleton]

theorem Call.Remembers.target {rounds : Nat} {c : Call} {k : Nat}
    (remembers : c.Remembers rounds k) :
    c.after.lastIteration.map UInt32.toNat =
      (latest [k]).or (c.before.lastIteration.map UInt32.toNat) := by
  rcases Nat.eq_zero_or_pos k with rfl | caught
  · rw [remembers.idle rfl]
    rfl
  · rw [remembers.caught caught,latestOne caught]
    rfl

theorem counted (rounds : Nat) (s : Session) {ops : List Op}
    (same : ∀ op ∈ ops, op.isRebuild = false) :
    ∃ counts, List.Forall₂ (Call.Remembers rounds) (s.calls rounds ops) counts ∧
      (s.atEnd rounds ops).lastIteration.map UInt32.toNat =
        (latest counts).or (s.lastIteration.map UInt32.toNat) := by
  induction ops generalizing s with
  | nil => exact ⟨[],.nil,rfl⟩
  | cons op ops ih =>
    obtain ⟨k,remembers⟩ := stepRemembers rounds s (same op List.mem_cons_self)
    have target := remembers.target
    unfold calls atEnd run
    rcases first : s.step rounds op with ⟨_ | answer,t⟩ <;> rw [first] at remembers target
    · exact ⟨[k],.cons remembers .nil,target⟩
    · obtain ⟨counts,rest,ends⟩ := ih t fun op mem => same op (List.mem_cons_of_mem _ mem)
      refine ⟨k::counts,.cons remembers rest,?_⟩
      rw [latestCons,Option.or_assoc,← target,List.map_cons,List.getLastD_cons]
      exact ends

theorem latestOthers {rounds : Nat} {calls : List Call} {counts : List Nat}
    (remember : List.Forall₂ (Call.Remembers rounds) calls counts)
    (others : ∀ c ∈ calls, c.op.isSequence = false) : latest counts = none := by
  induction remember with
  | nil => rfl
  | cons first rest ih =>
    obtain ⟨other,later⟩ := List.forall_mem_cons.mp others
    rw [latestCons,ih later,(Call.capturedOther other).mp first.count]
    rfl

theorem latestRecorded {rounds : Nat} {earlier later : List Call} {c : Call} {counts : List Nat}
    {r : Recording} (remember : List.Forall₂ (Call.Remembers rounds) (earlier ++ c::later) counts)
    (others : ∀ d ∈ later, d.op.isSequence = false) (recorded : c.answer = some (.recorded r))
    (caught : 0 < r.captured) : latest counts = some r.captured := by
  induction earlier generalizing counts with
  | nil =>
    rcases remember with _ | ⟨first,rest⟩
    rw [latestCons,latestOthers rest others,← first.recorded r recorded]
    exact latestOne caught
  | cons d earlier ih =>
    rcases remember with _ | ⟨first,rest⟩
    rw [latestCons,ih rest]
    rfl

def lostStart : Session :=
  start ⟨.fake (.startingAt 3),.ofFrames [.ok "[iter 5]",.ok "[iter 5]",.ok "[iter 5]",
    .ok "[iter 6]",.ok "[iter 1]",.ok "[iter 1]",.error ⟨"lost"⟩],[],fun _ => .epoch⟩
    ⟨Span.ofMillis 10,Span.ofMillis 5⟩

def lostOps : List Op :=
  [.sequence 2 (Span.ofMillis 40) (Span.ofMillis 50),
    .sequence 3 (Span.ofMillis 40) (Span.ofMillis 50),.push "no marker",
    .sequence 1 (Span.ofMillis 20) (Span.ofMillis 50)]

def aheadRecording : Recording :=
  ⟨[Snapshot.ofContent "[iter 5]" 1 .epoch,Snapshot.ofContent "[iter 6]" 2 .epoch],none,false⟩

/- `ops` may end anywhere, so this says what is remembered at every point of a session. -/
theorem lastTargetRemembered :
    (∀ (rounds : Nat) (s : Session) (ops : List Op), s.lastIteration = none →
      (∀ op ∈ ops, op.isRebuild = false) →
      let calls := s.calls rounds ops
      let last := (s.atEnd rounds ops).lastIteration.map UInt32.toNat
      calls.map (fun c => (c.answer,c.after)) = s.run rounds ops ∧
      ∃ counts, List.Forall₂ (Call.Remembers rounds) calls counts ∧ last = latest counts ∧
        ∀ earlier c later r, calls = earlier ++ c::later →
          (∀ d ∈ later, d.op.isSequence = false) → c.answer = some (.recorded r) →
          0 < r.captured → last = some r.captured) ∧
    ∃ (rounds : Nat) (s : Session) (ops : List Op), s.lastIteration = none ∧
      (∀ op ∈ ops, op.isRebuild = false) ∧
      (∃ c ∈ s.calls rounds ops, ∃ k m, c.before.lastIteration = some k ∧
        c.after.lastIteration = some m ∧ m < k) ∧
      ∃ c ∈ s.calls rounds ops, ∃ r, c.answer = some (.recorded r) ∧ 0 < r.captured ∧
        ∀ snapshot ∈ r.snapshots, c.after.lastIteration ≠ some snapshot.iteration := by
  refine ⟨fun rounds s ops fresh same => ?_,?_⟩
  · obtain ⟨counts,remember,ends⟩ := counted rounds s same
    rw [fresh,Option.map_none,Option.or_none] at ends
    refine ⟨callsRun rounds s ops,counts,remember,ends,?_⟩
    intro earlier c later r split others recorded caught
    rw [ends]
    exact latestRecorded (split ▸ remember) others recorded caught
  · refine ⟨9,lostStart,lostOps,rfl,by decide,?_,?_⟩
    · exact ⟨(lostStart.calls 9 lostOps)[1],List.getElem_mem _,2,1,rfl,rfl,by decide⟩
    · have ahead : ∀ snapshot ∈ aheadRecording.snapshots, some 2 ≠ some snapshot.iteration := by
        decide
      exact ⟨(lostStart.calls 9 lostOps)[0],List.getElem_mem _,aheadRecording,rfl,by decide,ahead⟩

theorem lastTargetRememberedLost :
    ∃ counts, List.Forall₂ (Call.Remembers 9) (lostStart.calls 9 lostOps) counts ∧
      latest counts = some 1 := by
  have same : ∀ op ∈ lostOps, op.isRebuild = false := by decide
  obtain ⟨_,counts,remember,last,_⟩ := lastTargetRemembered.1 9 lostStart lostOps rfl same
  exact ⟨counts,remember,last.symm⟩

end Session
end PaneWatch
