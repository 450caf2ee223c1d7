import PaneWatch.Pane

/-! A scripted pane serves each appended frame once and in order, however appending, capturing
and awaiting are mixed. What a capture gives is settled when it is asked for. -/
namespace PaneWatch

namespace ScriptedPane

def lastAfter (last : String) : Frame → String
  | .ok text => text
  | .error _ => last

theorem captureCases (p : ScriptedPane) :
    (p.frames = [] ∧ p.capture = (.ok p.last,{ p with captures := p.captures + 1 })) ∨
      ∃ frame rest, p.frames = frame::rest ∧
        p.capture = (frame,⟨rest,lastAfter p.last frame,p.captures + 1⟩) := by
  unfold capture
  rcases frames : p.frames with _ | ⟨frame,rest⟩
  · exact .inl ⟨rfl,rfl⟩
  · cases frame <;> exact .inr ⟨_,rest,rfl,rfl⟩

end ScriptedPane

namespace Replay

structure Call where
  before : ScriptedPane
  outcome : Frame
  after : ScriptedPane

def Op.call? (p : ScriptedPane) : Op → Option Call
  | .capture => some ⟨p,p.capture.1,p.capture.2⟩
  | _ => none

def Op.frames : Op → List Frame
  | .push text => [.ok text]
  | .pushRepeated text count => List.replicate count (.ok text)
  | .pushFailure message => [.error ⟨message⟩]
  | _ => []

def Op.settles (i : Nat) : Op → Prop
  | .await j => j = i
  | .giveUp j => j = i
  | _ => False

def Op.onPane : Op → Bool
  | .await _ => false
  | .giveUp _ => false
  | _ => true

def calls (r : Replay) : List Op → List Call
  | [] => []
  | op::ops => (op.call? r.pane).toList ++ calls (r.step op).2 ops

def fromScript (cs : List Call) : List Frame :=
  (cs.filter fun c => c.before.remaining ≠ 0).map Call.outcome

def lastShown (frames : List Frame) : String :=
  ((frames.filterMap Except.toOption).getLast?).getD ""

theorem fromScriptAppend (cs ds : List Call) :
    fromScript (cs ++ ds) = fromScript cs ++ fromScript ds := by
  simp [fromScript]

theorem afterCons (r : Replay) (op : Op) (ops : List Op) :
    r.after (op::ops) = (r.step op).2.after ops := rfl

theorem paneStep (r : Replay) (op : Op) :
    (op ≠ .capture ∧ op.call? r.pane = none ∧ (r.step op).2.pane = r.pane.append op.frames) ∨
      (op = .capture ∧ (r.step op).2.pane = r.pane.capture.2) := by
  cases op with
  | capture => exact .inr ⟨rfl,rfl⟩
  | _ => simp [Op.call?,Op.frames,step,ScriptedPane.push,ScriptedPane.pushRepeated,
      ScriptedPane.pushFailure,ScriptedPane.append]

theorem framesStep (r : Replay) (op : Op) :
    fromScript (op.call? r.pane).toList ++ (r.step op).2.pane.frames =
      r.pane.frames ++ op.frames := by
  rcases r.paneStep op with ⟨_,silent,grown⟩ | ⟨rfl,taken⟩
  · simp [silent,grown,fromScript,ScriptedPane.append]
  · rcases r.pane.captureCases with ⟨none,made⟩ | ⟨frame,rest,some,made⟩
    · simp [taken,made,Op.call?,Op.frames,fromScript,ScriptedPane.remaining,none]
    · simp [taken,made,Op.call?,Op.frames,fromScript,ScriptedPane.remaining,some]

theorem framesRun (r : Replay) (ops : List Op) :
    fromScript (r.calls ops) ++ (r.after ops).pane.frames =
      r.pane.frames ++ ops.flatMap Op.frames := by
  induction ops generalizing r with
  | nil => simp [calls,after,fromScript]
  | cons op ops ih =>
    rw [calls,fromScriptAppend,List.append_assoc,afterCons,ih,← List.append_assoc,framesStep,
      List.flatMap_cons,List.append_assoc]

theorem capturesStep (r : Replay) (op : Op) :
    (op.call? r.pane).toList.length = [op].count .capture ∧
      (r.step op).2.pane.captures = r.pane.captures + [op].count .capture := by
  rcases r.paneStep op with ⟨other,silent,grown⟩ | ⟨rfl,taken⟩
  · simp [silent,grown,other,ScriptedPane.append]
  · rcases r.pane.captureCases with ⟨_,made⟩ | ⟨_,_,_,made⟩ <;> simp [taken,made,Op.call?]

theorem capturesRun (r : Replay) (ops : List Op) :
    (r.calls ops).length = ops.count .capture ∧
      (r.after ops).pane.captures = r.pane.captures + ops.count .capture := by
  induction ops generalizing r with
  | nil => exact ⟨rfl,rfl⟩
  | cons op ops ih =>
    obtain ⟨made,counted⟩ := ih (r.step op).2
    obtain ⟨first,moved⟩ := r.capturesStep op
    have both : (op::ops).count .capture = [op].count .capture + ops.count .capture := by
      rw [← List.count_append,List.singleton_append]
    rw [calls,afterCons,List.length_append,made,first,counted,moved,both,Nat.add_assoc]
    exact ⟨rfl,rfl⟩

theorem lastStep (r : Replay) (op : Op) : (r.step op).2.pane.last =
    (fromScript (op.call? r.pane).toList).foldl ScriptedPane.lastAfter r.pane.last := by
  rcases r.paneStep op with ⟨_,silent,grown⟩ | ⟨rfl,taken⟩
  · rw [silent,grown]; rfl
  · rcases r.pane.captureCases with ⟨none,made⟩ | ⟨frame,rest,some,made⟩
    · simp [taken,made,Op.call?,fromScript,ScriptedPane.remaining,none]
    · simp [taken,made,Op.call?,fromScript,ScriptedPane.remaining,some]

theorem lastRun (r : Replay) (ops : List Op) : (r.after ops).pane.last =
    (fromScript (r.calls ops)).foldl ScriptedPane.lastAfter r.pane.last := by
  induction ops generalizing r with
  | nil => rfl
  | cons op ops ih =>
    rw [calls,fromScriptAppend,List.foldl_append,afterCons,ih,lastStep]

theorem lastFold (last : String) (frames : List Frame) :
    frames.foldl ScriptedPane.lastAfter last =
      ((frames.filterMap Except.toOption).getLast?).getD last := by
  induction frames generalizing last with
  | nil => rfl
  | cons frame frames ih =>
    rw [List.foldl_cons,ih]
    cases frame with
    | error e => rfl
    | ok text => simp [Except.toOption,ScriptedPane.lastAfter,List.getLast?_cons]

theorem callMade {r : Replay} {ops : List Op} {earlier later : List Call} {call : Call}
    (found : r.calls ops = earlier ++ call::later) :
    ∃ done, r.calls done = earlier ∧ Op.capture.call? (r.after done).pane = some call := by
  induction ops generalizing r earlier with
  | nil => simp [calls] at found
  | cons op ops ih =>
    rw [calls] at found
    rcases made : op.call? r.pane with _ | first
    · rw [made] at found
      obtain ⟨done,before,captured⟩ := ih found
      exact ⟨op::done,by rw [calls,made,before]; rfl,captured⟩
    · rw [made] at found
      rcases List.cons_eq_append_iff.mp found with ⟨rfl,same⟩ | ⟨before,rfl,rest⟩
      · cases op <;> cases made
        cases same
        exact ⟨[],rfl,rfl⟩
      · obtain ⟨done,before,captured⟩ := ih rest
        exact ⟨op::done,by rw [calls,made,before]; rfl,captured⟩

theorem exhaustedCall {r : Replay} {ops : List Op} {earlier later : List Call} {call : Call}
    (found : r.calls ops = earlier ++ call::later) (empty : call.before.remaining = 0) :
    call.outcome = .ok ((fromScript earlier).foldl ScriptedPane.lastAfter r.pane.last) ∧
      call.after.frames = call.before.frames := by
  obtain ⟨done,before,captured⟩ := callMade found
  cases captured
  have none : (r.after done).pane.frames = [] := List.length_eq_zero_iff.mp empty
  rcases (r.after done).pane.captureCases with ⟨_,asked⟩ | ⟨_,_,some,_⟩
  · rw [asked,lastRun,before]
    exact ⟨rfl,rfl⟩
  · rw [none] at some
    cases some

theorem askedStep (r : Replay) (op : Op) :
    (r.step op).2.asked = r.asked ++ ((op.call? r.pane).toList.map (some ∘ Call.outcome)) ∨
      ∃ j, op.settles j ∧ op.call? r.pane = none ∧ (r.step op).2.asked = r.asked.set j none := by
  cases op with
  | await j => exact .inr ⟨j,rfl,rfl,rfl⟩
  | giveUp j => exact .inr ⟨j,rfl,rfl,rfl⟩
  | _ => simp [step,Op.call?]

theorem releasedStays {r : Replay} {i : Nat} (released : r.asked[i]? = some none)
    (ops : List Op) : (r.after ops).asked[i]? = some none := by
  induction ops generalizing r with
  | nil => exact released
  | cons op ops ih =>
    apply ih
    have bound := (List.getElem?_eq_some_iff.mp released).1
    rcases r.askedStep op with grown | ⟨j,_,_,set⟩
    · rw [grown,List.getElem?_append_left bound,released]
    · rw [set,List.getElem?_set]
      split
      · simp_all
      · exact released

theorem askedRun (r : Replay) (ops : List Op) (i : Nat) :
    (r.after ops).asked[i]? = (r.asked ++ (r.calls ops).map (some ∘ Call.outcome))[i]? ∨
      ((∃ op ∈ ops, op.settles i) ∧ (r.after ops).asked[i]? = some none) := by
  induction ops generalizing r with
  | nil => simp [calls,after]
  | cons op ops ih =>
    rw [afterCons,calls]
    have rest := ih (r.step op).2
    have wider : (∃ op ∈ ops, op.settles i) → ∃ other ∈ op::ops, other.settles i :=
      fun ⟨other,mem,settles⟩ => ⟨other,List.mem_cons_of_mem _ mem,settles⟩
    rcases r.askedStep op with grown | ⟨j,settles,silent,set⟩
    · rw [grown,List.append_assoc,← List.map_append] at rest
      exact rest.imp_right (And.imp_left wider)
    · rw [silent,Option.toList_none,List.nil_append]
      by_cases here : j = i ∧ i < r.asked.length
      · obtain ⟨rfl,bound⟩ := here
        refine .inr ⟨⟨op,List.mem_cons_self,settles⟩,releasedStays ?_ ops⟩
        rw [set,List.getElem?_set_self bound]
      · have same : ((r.step op).2.asked ++ ((r.step op).2.calls ops).map (some ∘ Call.outcome))[i]?
            = (r.asked ++ ((r.step op).2.calls ops).map (some ∘ Call.outcome))[i]? := by
          rw [set,List.getElem?_append,List.getElem?_append,List.length_set]
          grind
        rw [← same]
        exact rest.imp_right (And.imp_left wider)

theorem heldOutcome (cs : List Call) (i : Nat) :
    ((cs.map (some ∘ Call.outcome))[i]?).join = cs[i]?.map Call.outcome := by
  rw [List.getElem?_map]
  cases cs[i]? <;> rfl

theorem paneOnly {r u : Replay} (same : r.pane = u.pane) (ops : List Op) :
    r.calls ops = u.calls (ops.filter Op.onPane) ∧
      (r.after ops).pane = (u.after (ops.filter Op.onPane)).pane := by
  induction ops generalizing r u with
  | nil => exact ⟨rfl,same⟩
  | cons op ops ih =>
    rcases kind : op.onPane with _ | _
    · have silent : op.call? r.pane = none ∧ (r.step op).2.pane = u.pane := by
        cases op <;> simp_all [Op.onPane,Op.call?,step]
      rw [List.filter_cons_of_neg (by simp [kind]),calls,silent.1,afterCons]
      exact ih silent.2
    · have alike : (r.step op).2.pane = (u.step op).2.pane := by
        cases op <;> simp [step,same]
      obtain ⟨sameCalls,samePane⟩ := ih alike
      rw [List.filter_cons_of_pos kind,calls,calls,sameCalls,same,afterCons,afterCons]
      exact ⟨rfl,samePane⟩

/- What the calls of a run and the state after it have to do with what was appended. -/
structure Replayed (initial : List String) (ops : List Op) (cs : List Call) (r : Replay) :
    Prop where
  served : ∃ rest, fromScript cs ++ rest = initial.map .ok ++ ops.flatMap Op.frames ∧
    rest.length = r.pane.remaining
  made : cs.length = ops.count .capture
  counted : r.pane.captures = ops.count .capture
  exhausted : ∀ earlier call later, cs = earlier ++ call::later → call.before.remaining = 0 →
    call.outcome = .ok (lastShown (fromScript earlier)) ∧ call.after.frames = call.before.frames
  awaited : ∀ i, (∀ op ∈ ops, ¬ op.settles i) → (r.step (.await i)).1 = cs[i]?.map Call.outcome
  settled : ∀ i frame, (r.step (.await i)).1 = some frame → cs[i]?.map Call.outcome = some frame

theorem replayLossless (initial : List String) (ops : List Op) :
    Replayed initial ops ((start initial).calls ops) ((start initial).after ops) ∧
      (start initial).calls (ops.filter Op.onPane) = (start initial).calls ops ∧
      ((start initial).after (ops.filter Op.onPane)).pane = ((start initial).after ops).pane := by
  obtain ⟨made,counted⟩ := capturesRun (start initial) ops
  have counted : ((start initial).after ops).pane.captures = ops.count .capture := by
    simpa [start,ScriptedPane.ofFrames] using counted
  obtain ⟨sameCalls,samePane⟩ := paneOnly (Eq.refl (start initial).pane) ops
  refine ⟨⟨⟨_,framesRun (start initial) ops,rfl⟩,made,counted,?_,?_,?_⟩,sameCalls.symm,
    samePane.symm⟩
  · intro earlier call later found empty
    have shown := exhaustedCall found empty
    rw [lastFold] at shown
    exact shown
  · intro i untouched
    rcases askedRun (start initial) ops i with same | ⟨⟨op,mem,settles⟩,_⟩
    · exact (congrArg Option.join same).trans (heldOutcome _ i)
    · exact absurd settles (untouched op mem)
  · intro i frame answer
    rcases askedRun (start initial) ops i with same | ⟨_,gone⟩
    · exact ((congrArg Option.join same).trans (heldOutcome _ i)).symm.trans answer
    · rw [step,gone] at answer
      cases answer

end Replay
end PaneWatch
