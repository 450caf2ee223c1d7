import PaneWatch.Proofs.Watch.Outcome

/-! A pane whose markers never go back, and what is recorded of it. The snapshot of a target is
taken after the capture that showed the target, so it shows the target or a later one, or no
marker at all and is then counted as the target. Only the captures of the call itself matter. -/
namespace PaneWatch.Watch

variable {σ ε : Type} [Stage σ ε]

def texts (entries : List (Capture ε)) : List String :=
  entries.filterMap fun c => c.outcome.toOption

def Forward (shown : List String) : Prop :=
  shown.Pairwise fun a b => ∀ x ∈ Marker.iteration? a, ∀ y ∈ Marker.iteration? b, x ≤ y

def Readable (s : Snapshot) : Prop := (Marker.iteration? s.content).isSome = true

def waitTexts (rounds : Nat) (settings : Settings) (n : UInt32) (timeout : Span) (s : σ) :
    List String :=
  texts (wait rounds settings n timeout (Journal.start s : Journal σ ε)).2.entries

def sequenceTexts (rounds : Nat) (settings : Settings) (lastTarget : UInt32)
    (timeout budget : Span) (p : Progress σ) : List String :=
  texts (sequence rounds settings lastTarget timeout budget
    (⟨Journal.start p.stage,p.lastIteration⟩ : Progress (Journal σ ε))).2.stage.entries

theorem textsAppend (old new : List (Capture ε)) : texts (old ++ new) = texts old ++ texts new :=
  List.filterMap_append

theorem Forward.part {shown part : List String} (forward : Forward shown)
    (inside : part.Sublist shown) : Forward part :=
  List.Pairwise.sublist inside forward

theorem readableShown {n : UInt32} {snapshot : Snapshot} {text : String} {x : UInt32}
    (shows : snapshot.toSighting = Sighting.ofContent text n)
    (marker : Marker.iteration? snapshot.content = some x) : snapshot.iteration = x := by
  have same : snapshot.iteration = (Marker.iteration? snapshot.content).getD n := by
    rw [shows]
    rfl
  rw [same,marker]
  rfl

theorem caughtForward {n : UInt32} {reading : Span} {snapshot : Snapshot}
    {written : List (Capture ε)}
    (source : Written n reading (some (.ok (some snapshot))) written) :
    [snapshot.content].Sublist (texts written) ∧ (Forward (texts written) → n ≤ snapshot.iteration) ∧
      ∀ x, Marker.iteration? snapshot.content = some x → snapshot.iteration = x := by
  obtain ⟨polls,hit,text,rfl,⟨before,outcome,reached⟩,shows⟩ := caughtLast source
  have content : snapshot.content = text := by rw [shows]; rfl
  have tail : texts [hit,⟨reading,.ok text⟩] = [before,text] := by
    simp only [texts,List.filterMap_cons,outcome,Except.toOption,List.filterMap_nil]
  rw [textsAppend,tail,content]
  refine ⟨?_,fun forward => ?_,fun x marker => readableShown shows (content ▸ marker)⟩
  · exact ((List.Sublist.refl [text]).cons before).trans (List.sublist_append_right _ _)
  · obtain ⟨shown,marker,le⟩ := reachedShown.mp reached
    cases settled : Marker.iteration? text with
    | none =>
      have same : snapshot.iteration = n := by
        rw [shows,Sighting.ofContent,settled]
        rfl
      rw [same]
      exact UInt32.le_refl n
    | some y =>
      have inOrder := forward.part (List.sublist_append_right (texts polls) _)
      have later := (List.pairwise_cons.mp inOrder).1 text List.mem_cons_self shown marker y settled
      rw [readableShown shows (content ▸ settled)]
      exact UInt32.le_trans le later

theorem trailForward {rounds : Nat} {settings : Settings} {timeout budget start : Span}
    {target : Nat} {j : Journal σ ε} {snapshots stops}
    (trail : Trail rounds settings timeout budget start target j snapshots stops) :
    ∃ written, (stops.getLastD j).entries = j.entries ++ written ∧
      (snapshots.map fun s => s.content).Sublist (texts written) ∧
      (Forward (texts written) → ∀ i snapshot, snapshots[i]? = some snapshot →
        UInt32.ofNat (target + i) ≤ snapshot.iteration) ∧
      ∀ snapshot ∈ snapshots, ∀ x, Marker.iteration? snapshot.content = some x →
        snapshot.iteration = x := by
  induction trail with
  | nil target j => exact ⟨[],(List.append_nil _).symm,List.Sublist.refl _,by simp,by simp⟩
  | @cons target j t snapshot snapshots stops inTime waited rest ih =>
    obtain ⟨later,ends,contents,iterations,markers⟩ := ih
    obtain ⟨first,entries,source⟩ := writtenByWait waited
    obtain ⟨content,iteration,marker⟩ := caughtForward source
    refine ⟨first ++ later,?_,?_,fun forward i => ?_,List.forall_mem_cons.mpr ⟨marker,markers⟩⟩
    · rw [List.getLastD_cons,ends,entries,List.append_assoc]
    · rw [textsAppend]
      exact content.append contents
    · rw [textsAppend] at forward
      rcases i with _ | i
      · rintro _ ⟨⟩
        exact iteration (forward.part (List.sublist_append_left _ _))
      · rw [show target + (i+1) = target + 1 + i by omega]
        exact iterations (forward.part (List.sublist_append_right _ _)) i

theorem neverBehind (rounds : Nat) (settings : Settings) (timeout : Span) :
    (∀ (n : UInt32) (s t : σ) (snapshot : Snapshot),
      wait rounds settings n timeout s = (some (.ok (some snapshot)),t) →
      Forward (waitTexts rounds settings n timeout s) → n ≤ snapshot.iteration) ∧
    ∀ (lastTarget : UInt32) (budget : Span) (p q : Progress σ) (r : Recording),
      sequence rounds settings lastTarget timeout budget p = (some (.ok r),q) →
      Forward (sequenceTexts rounds settings lastTarget timeout budget p) →
      (∀ i snapshot, r.snapshots[i]? = some snapshot → i + 1 ≤ snapshot.iteration.toNat) ∧
      r.snapshots.Pairwise fun a b => Readable a → Readable b → a.iteration ≤ b.iteration := by
  refine ⟨fun n s t snapshot waited forward => ?_,
    fun lastTarget budget p q r recorded forward => ?_⟩
  · obtain ⟨entries,journaled⟩ := waitJournaled rounds settings n timeout s
    rw [waited] at journaled
    obtain ⟨written,same,source⟩ := writtenByWait journaled
    rw [waitTexts,journaled,same] at forward
    exact (caughtForward source).2.1 forward
  · obtain ⟨entries,journaled⟩ := sequenceJournaled rounds settings lastTarget timeout budget p
    rw [recorded] at journaled
    obtain ⟨bounded,_,stops,trail,ending⟩ := recordedRun (sequenceRun journaled) rfl
    obtain ⟨written,same,contents,iterations,markers⟩ := trailForward trail
    have kept : written <+: entries := by
      have grown := endingGrows ending
      rw [same] at grown
      exact grown
    rw [sequenceTexts,journaled] at forward
    have inOrder := forward.part (kept.sublist.filterMap _)
    refine ⟨fun i snapshot atPlace => ?_,?_⟩
    · have inside : i < r.captured := (List.getElem?_eq_some_iff.mp atPlace).1
      have small : lastTarget.toNat < UInt32.size := lastTarget.toNat_lt
      have count : (UInt32.ofNat (1 + i)).toNat = i + 1 := targetCount (by omega)
      rw [← count]
      exact UInt32.le_iff_toNat_le.mp (iterations inOrder i snapshot atPlace)
    · refine (List.pairwise_map.mp (inOrder.part contents)).imp_of_mem fun {a b} memA memB ordered => ?_
      intro readableA readableB
      obtain ⟨x,markerA⟩ := Option.isSome_iff_exists.mp readableA
      obtain ⟨y,markerB⟩ := Option.isSome_iff_exists.mp readableB
      rw [markers a memA x markerA,markers b memB y markerB]
      exact ordered x markerA y markerB

def onwardStart : Progress Scene :=
  ⟨⟨.fake (.startingAt 3),.ofFrames [.ok "[iter 1]",.ok "▶ auto",.ok "[iter 4]",.ok "[iter 5]"],
    [],fun _ => .epoch⟩,none⟩

def onwardRecording : Recording :=
  ⟨[Snapshot.ofContent "▶ auto" 1 .epoch,Snapshot.ofContent "[iter 5]" 2 .epoch],none,false⟩

theorem neverBehindUnmarked :
    Forward (sequenceTexts 9 briefSettings 2 (Span.ofMillis 40) (Span.ofMillis 50) onwardStart) ∧
      (∀ i snapshot, onwardRecording.snapshots[i]? = some snapshot →
        i + 1 ≤ snapshot.iteration.toNat) ∧
      onwardRecording.snapshots.Pairwise fun a b =>
        Readable a → Readable b → a.iteration ≤ b.iteration := by
  have answer : (sequence 9 briefSettings 2 (Span.ofMillis 40) (Span.ofMillis 50) onwardStart).1 =
      some (.ok onwardRecording) := by rfl
  have recorded : sequence 9 briefSettings 2 (Span.ofMillis 40) (Span.ofMillis 50) onwardStart =
      (some (.ok onwardRecording),
        (sequence 9 briefSettings 2 (Span.ofMillis 40) (Span.ofMillis 50) onwardStart).2) := by
    rw [← answer]
  have shown : sequenceTexts 9 briefSettings 2 (Span.ofMillis 40) (Span.ofMillis 50) onwardStart =
      ["[iter 1]","▶ auto","[iter 4]","[iter 5]"] := by rfl
  have markers : ["[iter 1]","▶ auto","[iter 4]","[iter 5]"].map Marker.iteration? =
      [some 1,none,some 4,some 5] := by rfl
  have forward : ([some 1,none,some 4,some 5] : List (Option UInt32)).Pairwise fun a b =>
      ∀ x ∈ a, ∀ y ∈ b, x ≤ y := by simp
  rw [← markers,List.pairwise_map,← shown] at forward
  exact ⟨forward,(neverBehind 9 briefSettings (Span.ofMillis 40)).2 2 _ _ _ _ recorded forward⟩

end PaneWatch.Watch
