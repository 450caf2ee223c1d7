import PaneWatch.Proofs.Watch.Journal

/-! What a recorded run of targets amounts to. The targets caught leave a trail of stages, one
for each snapshot, and the run ends after it in one of three ways: nothing was left to wait
for, the budget was spent, or a wait came back empty. On a journal the trail becomes places
in the journal, and the ending a statement about the entries after the last of them. -/
namespace PaneWatch.Watch

variable {σ ε : Type} [Stage σ ε]

inductive Trail (rounds : Nat) (settings : Settings) (timeout budget start : Span) :
    (target : Nat) → σ → List Snapshot → List σ → Prop where
  | nil (target s) : Trail rounds settings timeout budget start target s [] []
  | cons {target s t snapshot snapshots stops}
      (inTime : ¬ budget ≤ Stage.elapsedSince start s)
      (waited : wait rounds settings (UInt32.ofNat target)
        (timeout.shorter (budget - Stage.elapsedSince start s)) s =
          (some (.ok (some snapshot)),t))
      (rest : Trail rounds settings timeout budget start (target+1) t snapshots stops) :
      Trail rounds settings timeout budget start target s (snapshot::snapshots) (t::stops)

inductive Ending (rounds : Nat) (settings : Settings) (timeout budget start : Span) :
    (left target : Nat) → σ → Bool → σ → Prop where
  | finished (target s) : Ending rounds settings timeout budget start 0 target s false s
  | spent {left target s} (gone : budget ≤ Stage.elapsedSince start s) :
      Ending rounds settings timeout budget start (left+1) target s true s
  | missed {left target s t} (inTime : ¬ budget ≤ Stage.elapsedSince start s)
      (waited : wait rounds settings (UInt32.ofNat target)
        (timeout.shorter (budget - Stage.elapsedSince start s)) s = (some (.ok none),t)) :
      Ending rounds settings timeout budget start (left+1) target s false t

theorem endingSpent {rounds : Nat} {settings : Settings} {timeout budget start : Span}
    {left target : Nat} {s t : σ} {timedOut}
    (ending : Ending rounds settings timeout budget start left target s timedOut t) :
    (timedOut = true ↔ 0 < left ∧ budget ≤ Stage.elapsedSince start s) ∧
      (timedOut = true → t = s) := by
  cases ending with
  | finished => simp
  | spent gone => simp [gone]
  | missed inTime waited => simp [inTime]

theorem endingMissed {rounds : Nat} {settings : Settings} {timeout budget start : Span}
    {left target : Nat} {s t : σ}
    (ending : Ending rounds settings timeout budget start left target s false t)
    (more : 0 < left) :
    Stage.elapsedSince start s < budget ∧ wait rounds settings (UInt32.ofNat target)
      (timeout.shorter (budget - Stage.elapsedSince start s)) s = (some (.ok none),t) := by
  cases ending with
  | finished => contradiction
  | missed inTime waited => exact ⟨Nat.lt_of_not_le inTime,waited⟩

theorem recordedRun {rounds : Nat} {settings : Settings} {timeout budget start : Span}
    {left target : Nat} {p q : Progress σ} {out r}
    (run : TargetRun rounds settings timeout budget start left target p out)
    (recorded : out = (some (.ok r),q)) :
    r.captured ≤ left ∧ r.exitCode = none ∧
      ∃ stops, Trail rounds settings timeout budget start target p.stage r.snapshots stops ∧
        Ending rounds settings timeout budget start (left - r.captured) (target + r.captured)
          (stops.getLastD p.stage) r.timedOut q.stage := by
  induction run generalizing r with
  | finished =>
    cases recorded
    exact ⟨Nat.le_refl _,rfl,[],.nil _ _,.finished _ _⟩
  | spent gone =>
    cases recorded
    exact ⟨Nat.zero_le _,rfl,[],.nil _ _,.spent gone⟩
  | pending inTime waited => cases recorded
  | failed inTime waited => cases recorded
  | missed inTime waited =>
    cases recorded
    exact ⟨Nat.zero_le _,rfl,[],.nil _ _,.missed inTime waited⟩
  | @caught left target p snapshot s out inTime waited rest ih =>
    obtain ⟨answer,last⟩ := out
    rcases answer with _ | e | tail <;> cases recorded
    obtain ⟨bounded,noCode,stops,trail,ending⟩ := ih rfl
    -- The rest of the run ends where this one does, with one target less left.
    have count : (prepend snapshot tail).captured = tail.captured + 1 := rfl
    refine ⟨by omega,noCode,s::stops,.cons inTime waited trail,?_⟩
    rw [count,List.getLastD_cons,Nat.add_sub_add_right,← Nat.add_assoc,Nat.add_right_comm]
    exact ending

/- A stage at which a snapshot has just been made: the last two entries of its journal. -/
def Stop (n : UInt32) (snapshot : Snapshot) (j : Journal σ ε) : Prop :=
  ∃ before hit text, j.entries = before ++ [hit,⟨Stage.now j,.ok text⟩] ∧ Hits n hit ∧
    snapshot.toSighting = Sighting.ofContent text n

theorem stopped {rounds : Nat} {settings : Settings} {n : UInt32} {timeout : Span}
    {j k : Journal σ ε} {snapshot}
    (waited : wait rounds settings n timeout j = (some (.ok (some snapshot)),k)) :
    j.entries.length + 2 ≤ k.entries.length ∧ Stop n snapshot k := by
  obtain ⟨written,entries,source⟩ := writtenByWait waited
  obtain ⟨polls,hit,text,rfl,hits,shows⟩ := caughtLast source
  rw [← List.append_assoc] at entries
  refine ⟨?_,_,hit,text,entries,hits,shows⟩
  rw [entries]
  simp only [List.length_append,List.length_cons,List.length_nil]
  omega

theorem trailGrows {rounds : Nat} {settings : Settings} {timeout budget start : Span}
    {target : Nat} {j : Journal σ ε} {snapshots stops}
    (trail : Trail rounds settings timeout budget start target j snapshots stops) :
    ∀ k ∈ j::stops, k.entries <+: (stops.getLastD j).entries := by
  induction trail with
  | nil target j => simp
  | @cons target j t snapshot snapshots stops inTime waited rest ih =>
    rw [List.getLastD_cons]
    intro k mem
    rcases List.mem_cons.mp mem with rfl | later
    · have grown := (Journal.growing k.entries).waited waited (List.prefix_refl _)
      exact grown.trans (ih t List.mem_cons_self)
    · exact ih k later

theorem endingGrows {rounds : Nat} {settings : Settings} {timeout budget start : Span}
    {left target : Nat} {j k : Journal σ ε} {timedOut}
    (ending : Ending rounds settings timeout budget start left target j timedOut k) :
    j.entries <+: k.entries := by
  cases ending with
  | finished => exact List.prefix_refl _
  | spent gone => exact List.prefix_refl _
  | missed inTime waited => exact (Journal.growing j.entries).waited waited (List.prefix_refl _)

theorem trailApart {rounds : Nat} {settings : Settings} {timeout budget start : Span}
    {target : Nat} {j : Journal σ ε} {snapshots stops}
    (trail : Trail rounds settings timeout budget start target j snapshots stops) :
    stops.length = snapshots.length ∧ (∀ k ∈ stops, j.entries.length + 2 ≤ k.entries.length) ∧
      stops.Pairwise fun k l => k.entries.length + 2 ≤ l.entries.length := by
  induction trail with
  | nil => simp
  | cons inTime waited rest ih =>
    obtain ⟨count,after,apart⟩ := ih
    have further := (stopped waited).1
    refine ⟨by simp only [List.length_cons,count],?_,List.pairwise_cons.mpr ⟨after,apart⟩⟩
    intro k mem
    rcases List.mem_cons.mp mem with rfl | later
    · exact further
    · have := after k later
      omega

theorem trailStops {rounds : Nat} {settings : Settings} {timeout budget start : Span}
    {target : Nat} {j : Journal σ ε} {snapshots stops}
    (trail : Trail rounds settings timeout budget start target j snapshots stops) {i snapshot k}
    (atSnapshot : snapshots[i]? = some snapshot) (atStop : stops[i]? = some k) :
    Stop (UInt32.ofNat (target + i)) snapshot k := by
  induction trail generalizing i with
  | nil => simp at atSnapshot
  | @cons target s t _ snapshots stops inTime waited rest ih =>
    cases i with
    | zero =>
      cases Option.some.inj atSnapshot
      cases Option.some.inj atStop
      exact (stopped waited).2
    | succ i =>
      rw [show target + (i+1) = target + 1 + i by omega]
      exact ih atSnapshot atStop

theorem trailExact {rounds : Nat} {settings : Settings} {timeout budget start : Span}
    {target : Nat} {s : σ} {snapshots stops}
    (trail : Trail rounds settings timeout budget start target s snapshots stops)
    (last : Option UInt32) :
    ∃ last', targetsFrom rounds settings timeout budget start snapshots.length target ⟨s,last⟩ =
      (some (.ok ⟨snapshots,none,false⟩),⟨stops.getLastD s,last'⟩) := by
  induction trail generalizing last with
  | nil target s => exact ⟨last,rfl⟩
  | cons inTime waited rest ih =>
    obtain ⟨last',run⟩ := ih (some (UInt32.ofNat _))
    refine ⟨last',?_⟩
    rw [List.length_cons,targetExact (.caught inTime waited (targetCases ..)),run,
      List.getLastD_cons]
    rfl

def upTo (places : List Nat) : Nat := (places.getLast?.map (· + 1)).getD 0

def clockAfter (start : Span) (entries : List (Capture ε)) (used : Nat) : Span :=
  ((entries.take used).getLast?.map Capture.time).getD start

def placeOf (k : Journal σ ε) : Nat := k.entries.length - 1

theorem stopPlace {n : UInt32} {snapshot : Snapshot} {k : Journal σ ε} (stop : Stop n snapshot k) :
    placeOf k + 1 = k.entries.length ∧
      k.entries.getLast?.map Capture.time = some (Stage.now k) := by
  obtain ⟨before,hit,text,entries,_,_⟩ := stop
  simp [placeOf,entries]

theorem memberStop {rounds : Nat} {settings : Settings} {timeout budget start : Span}
    {target : Nat} {j : Journal σ ε} {snapshots stops}
    (trail : Trail rounds settings timeout budget start target j snapshots stops) {k}
    (mem : k ∈ stops) : ∃ n snapshot, Stop n snapshot k := by
  obtain ⟨i,atStop⟩ := List.mem_iff_getElem?.mp mem
  have count := (trailApart trail).1
  have inside : i < snapshots.length := by
    rw [← count]
    exact (List.getElem?_eq_some_iff.mp atStop).1
  exact ⟨_,_,trailStops trail (List.getElem?_eq_getElem inside) atStop⟩

theorem lastPlace {rounds : Nat} {settings : Settings} {timeout budget : Span} {target : Nat}
    {s : σ} {snapshots} {stops : List (Journal σ ε)} {entries : List (Capture ε)}
    (trail : Trail rounds settings timeout budget (Stage.now s) target (Journal.start s)
      snapshots stops)
    (inside : (stops.getLastD (Journal.start s)).entries <+: entries) :
    upTo (stops.map placeOf) = (stops.getLastD (Journal.start s)).entries.length ∧
      clockAfter (Stage.now s) entries (upTo (stops.map placeOf)) =
        Stage.now (stops.getLastD (Journal.start s)) := by
  rw [List.getLastD_eq_getLast?] at inside ⊢
  unfold clockAfter upTo
  rw [List.getLast?_map]
  cases last : stops.getLast? with
  | none => simp [Journal.start,Stage.now]
  | some k =>
    obtain ⟨n,snapshot,stop⟩ := memberStop trail (List.mem_of_getLast? last)
    obtain ⟨place,time⟩ := stopPlace stop
    rw [last,Option.getD_some] at inside
    have kept : entries.take k.entries.length = k.entries :=
      (List.prefix_iff_eq_take.mp inside).symm
    simp only [Option.map_some,Option.getD_some,place,kept,time,and_self]

/- The account of a call that recorded `r`: `places` are the journal's entries from which its
snapshots were made, counted from zero, and `last` is the stage at the call's end. -/
structure Account (rounds : Nat) (settings : Settings) (lastTarget : UInt32)
    (timeout budget : Span) (p : Progress σ) (r : Recording) (last : σ)
    (entries : List (Capture ε)) (places : List Nat) : Prop where
  bounded : r.captured ≤ lastTarget.toNat
  noExitCode : r.exitCode = none
  placed : places.length = r.captured
  apart : places.Pairwise fun a b => a + 2 ≤ b
  settled : ∀ i snapshot, r.snapshots[i]? = some snapshot →
    ∃ place before shown text, places[i]? = some (place + 1) ∧
      entries[place]?.map Capture.outcome = some (.ok before) ∧
      Marker.iteration? before = some shown ∧ i + 1 ≤ shown.toNat ∧
      entries[place+1]?.map Capture.outcome = some (.ok text) ∧
      snapshot.toSighting = Sighting.ofContent text (UInt32.ofNat (i + 1))
  timedOut : r.timedOut = true ↔ r.captured < lastTarget.toNat ∧
    budget ≤ clockAfter (Stage.now p.stage) entries (upTo places) - Stage.now p.stage
  spent : r.timedOut = true → entries.length = upTo places
  missed : r.captured < lastTarget.toNat → r.timedOut = false →
    let elapsed := clockAfter (Stage.now p.stage) entries (upTo places) - Stage.now p.stage
    let n := UInt32.ofNat (r.captured + 1)
    elapsed < budget ∧ ∃ (s : σ) (target : Option UInt32),
      sequence rounds settings (UInt32.ofNat r.captured) timeout budget
          ⟨Journal.start p.stage,p.lastIteration⟩ =
        (some (.ok ⟨r.snapshots,none,false⟩),⟨⟨s,entries.take (upTo places)⟩,target⟩) ∧
      wait rounds settings n (timeout.shorter (budget - elapsed))
          (⟨s,entries.take (upTo places)⟩ : Journal σ ε) =
        (some (.ok none),⟨last,entries⟩) ∧
      ∀ e ∈ entries.drop (upTo places), Misses n e

theorem placesApart {rounds : Nat} {settings : Settings} {timeout budget start : Span}
    {target : Nat} {j : Journal σ ε} {snapshots stops}
    (trail : Trail rounds settings timeout budget start target j snapshots stops) :
    (stops.map placeOf).Pairwise fun a b => a + 2 ≤ b := by
  obtain ⟨_,after,apart⟩ := trailApart trail
  rw [List.pairwise_map]
  refine apart.imp_of_mem fun {k l} mem _ further => ?_
  have := after k mem
  unfold placeOf
  omega

theorem placeSettled {n : UInt32} {snapshot : Snapshot} {k : Journal σ ε} {entries : List (Capture ε)}
    (stop : Stop n snapshot k) (inside : k.entries <+: entries) :
    ∃ place before shown text, placeOf k = place + 1 ∧
      entries[place]?.map Capture.outcome = some (.ok before) ∧
      Marker.iteration? before = some shown ∧ n ≤ shown ∧
      entries[place+1]?.map Capture.outcome = some (.ok text) ∧
      snapshot.toSighting = Sighting.ofContent text n := by
  obtain ⟨before,hit,text,same,⟨seen,outcome,reached⟩,shows⟩ := stop
  obtain ⟨more,rfl⟩ := inside
  obtain ⟨shown,marker,le⟩ := reachedShown.mp reached
  refine ⟨before.length,seen,shown,text,by simp [placeOf,same],?_,marker,le,?_,shows⟩
  · simp [same,outcome]
  · simp [same]

theorem targetCount {i : Nat} (small : i + 1 < UInt32.size) :
    (UInt32.ofNat (1 + i)).toNat = i + 1 := by
  rw [Nat.add_comm]
  exact UInt32.toNat_ofNat_of_lt' small

theorem snapshotSettled {rounds : Nat} {settings : Settings} {timeout budget start : Span}
    {j : Journal σ ε} {snapshots stops} {entries : List (Capture ε)}
    (trail : Trail rounds settings timeout budget start 1 j snapshots stops)
    (kept : (stops.getLastD j).entries <+: entries) (small : snapshots.length < UInt32.size)
    {i snapshot} (atSnapshot : snapshots[i]? = some snapshot) :
    ∃ place before shown text, (stops.map placeOf)[i]? = some (place + 1) ∧
      entries[place]?.map Capture.outcome = some (.ok before) ∧
      Marker.iteration? before = some shown ∧ i + 1 ≤ shown.toNat ∧
      entries[place+1]?.map Capture.outcome = some (.ok text) ∧
      snapshot.toSighting = Sighting.ofContent text (UInt32.ofNat (i + 1)) := by
  have inside : i < snapshots.length := (List.getElem?_eq_some_iff.mp atSnapshot).1
  have target : (UInt32.ofNat (1 + i)).toNat = i + 1 := targetCount (by omega)
  have count : i < stops.length := by rw [(trailApart trail).1]; exact inside
  have atStop : stops[i]? = some stops[i] := List.getElem?_eq_getElem count
  have stop := trailStops trail atSnapshot atStop
  have within := trailGrows trail stops[i] (List.mem_cons_of_mem _ (List.mem_of_getElem? atStop))
  obtain ⟨place,before,shown,text,same,hit,marker,le,settled,shows⟩ :=
    placeSettled stop (within.trans kept)
  refine ⟨place,before,shown,text,?_,hit,marker,?_,settled,?_⟩
  · rw [List.getElem?_map,atStop,Option.map_some,same]
  · rw [← target]; exact UInt32.le_iff_toNat_le.mp le
  · rw [shows,Nat.add_comm]

theorem sequenceOutcome {rounds : Nat} {settings : Settings} {lastTarget : UInt32}
    {timeout budget : Span} {p q : Progress σ} {r : Recording}
    (recorded : sequence rounds settings lastTarget timeout budget p = (some (.ok r),q)) :
    ∃ (entries : List (Capture ε)) (places : List Nat),
      sequence rounds settings lastTarget timeout budget
          ⟨Journal.start p.stage,p.lastIteration⟩ =
        (some (.ok r),⟨⟨q.stage,entries⟩,q.lastIteration⟩) ∧
      Account rounds settings lastTarget timeout budget p r q.stage entries places := by
  obtain ⟨entries,journaled⟩ := sequenceJournaled rounds settings lastTarget timeout budget p
  rw [recorded] at journaled
  have run := targetCases rounds settings timeout budget (Stage.now p.stage) lastTarget.toNat 1
    (⟨Journal.start p.stage,p.lastIteration⟩ : Progress (Journal σ ε))
  obtain ⟨bounded,noCode,stops,trail,ending⟩ := recordedRun run journaled
  have kept := endingGrows ending
  obtain ⟨used,clock⟩ := lastPlace trail kept
  have small : lastTarget.toNat < UInt32.size := lastTarget.toNat_lt
  have elapsed : Stage.elapsedSince (Stage.now p.stage) (stops.getLastD (Journal.start p.stage)) =
      clockAfter (Stage.now p.stage) entries (upTo (stops.map placeOf)) - Stage.now p.stage := by
    rw [clock]; rfl
  refine ⟨entries,stops.map placeOf,journaled,?_⟩
  refine ⟨bounded,noCode,by rw [List.length_map,(trailApart trail).1]; rfl,placesApart trail,
    ?_,?_,?_,?_⟩
  · exact fun i snapshot => snapshotSettled trail kept (Nat.lt_of_le_of_lt bounded small)
  · rw [← elapsed,← Nat.sub_pos_iff_lt]
    exact (endingSpent ending).1
  · intro timedOut
    have same := congrArg Journal.entries ((endingSpent ending).2 timedOut)
    rw [used,← same]
  · intro more inTime
    rw [inTime] at ending
    obtain ⟨early,waited⟩ := endingMissed ending (Nat.sub_pos_of_lt more)
    obtain ⟨target,caught⟩ := trailExact trail p.lastIteration
    have taken : entries.take (upTo (stops.map placeOf)) =
        (stops.getLastD (Journal.start p.stage)).entries := by
      rw [used]
      exact (List.prefix_iff_eq_take.mp kept).symm
    have count : (UInt32.ofNat r.captured).toNat = r.captured :=
      UInt32.toNat_ofNat_of_lt' (by omega)
    rw [← elapsed,taken]
    refine ⟨early,(stops.getLastD (Journal.start p.stage)).stage,target,?_,?_,?_⟩
    · rw [sequence,count]
      exact caught
    · rw [Nat.add_comm]
      exact waited
    · obtain ⟨written,same,source⟩ := writtenByWait waited
      have dropped : entries.drop (stops.getLastD (Journal.start p.stage)).entries.length =
          written := by
        rw [show entries = _ from same,List.drop_left]
      rw [used,dropped,Nat.add_comm]
      exact missedAll source

def briefPane : ScriptedPane :=
  .ofFrames [.ok "[iter 1]",.ok "[iter 1] 0:03",.ok "no marker",.ok "[iter 5]",.ok "▶ auto"]

def briefStart : Progress Scene := ⟨⟨.fake (.startingAt 3),briefPane,[],fun _ => .epoch⟩,none⟩

def briefSettings : Settings := ⟨Span.ofMillis 10,Span.ofMillis 5⟩

def briefRecording : Recording :=
  ⟨[Snapshot.ofContent "[iter 1] 0:03" 1 .epoch,Snapshot.ofContent "▶ auto" 2 .epoch],none,false⟩

theorem sequenceOutcomeCutShort :
    ∃ q, sequence 9 briefSettings 4 (Span.ofMillis 40) (Span.ofMillis 50) briefStart =
        (some (.ok briefRecording),q) ∧
      ∃ entries places,
        sequence 9 briefSettings 4 (Span.ofMillis 40) (Span.ofMillis 50)
            ⟨Journal.start briefStart.stage,briefStart.lastIteration⟩ =
          (some (.ok briefRecording),⟨⟨q.stage,entries⟩,q.lastIteration⟩) ∧
        Account 9 briefSettings 4 (Span.ofMillis 40) (Span.ofMillis 50) briefStart briefRecording
          q.stage entries places := by
  have answer : (sequence 9 briefSettings 4 (Span.ofMillis 40) (Span.ofMillis 50) briefStart).1 =
      some (.ok briefRecording) := by rfl
  have recorded : sequence 9 briefSettings 4 (Span.ofMillis 40) (Span.ofMillis 50) briefStart =
      (some (.ok briefRecording),
        (sequence 9 briefSettings 4 (Span.ofMillis 40) (Span.ofMillis 50) briefStart).2) := by
    rw [← answer]
  exact ⟨_,recorded,sequenceOutcome recorded⟩

end PaneWatch.Watch
