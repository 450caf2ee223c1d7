import PaneWatch.Proofs.Recording.Dump

/-! What a dump that fails leaves behind. The summary is written last, so there is none unless
all else is there: a dump is cut short at one file, those in front of it hold their texts, and
nothing else has changed but for directories on the way to the one that was asked for. -/
namespace PaneWatch.Recording
open PaneWatch.Tree

/- The dump got as far as the file at place `k`, which could not be written. -/
structure CutAt (r : Recording) (directory : String) (k : Nat) (fault : FileFault)
    (before after : Tree) : Prop where
  place : k ≤ r.captured
  refused : ∃ name text, r.files[k]? = some (name,text) ∧
    after.writeFile directory (destination directory) name text = .error fault ∧
    AsBefore (wayTo directory) before after (destination directory ++ [name])
  texts : ∀ i < k, ∀ s, r.snapshots[i]? = some s →
    after.find? (destination directory ++ [s.fileName i]) = some (.file s.content)
  others : ∀ q, (∀ i < k, ∀ s, r.snapshots[i]? = some s →
    q ≠ destination directory ++ [s.fileName i]) → AsBefore (wayTo directory) before after q

theorem filesCount (r : Recording) : r.files.length = r.captured + 1 := by
  simp [files,captured]

theorem fileAt {r : Recording} {i : Nat} {s : Snapshot} (found : r.snapshots[i]? = some s) :
    r.files[i]? = some (s.fileName i,s.content) := by
  have inside := (List.getElem?_eq_some_iff.mp found).1
  rw [files,List.getElem?_append_left (by simpa using inside)]
  simp [found]

theorem filesCutAt {r : Recording} {directory : String} {fault : FileFault} {before t after : Tree}
    (made : before.makeDirectories directory = (.ok (destination directory),t))
    (cut : t.writeFiles directory (destination directory) r.files = (.error fault,after)) :
    ∃ k, r.CutAt directory k fault before after := by
  obtain ⟨done,name,text,rest,split,written,refused⟩ := filesCut cut
  have names : (done.map Prod.fst ++ name::rest.map Prod.fst).Nodup := by
    have apart := r.frameNamesApart
    rw [← fileNames,split] at apart
    simpa using apart
  obtain ⟨apart,_,fresh⟩ := List.nodup_append.mp names
  have written := filesWritten apart written
  have count := filesCount r
  rw [split,List.length_append,List.length_cons] at count
  have doneAt : ∀ i < done.length, ∀ s, r.snapshots[i]? = some s →
      done[i]? = some (s.fileName i,s.content) := by
    intro i within s found
    rw [← fileAt found,split,List.getElem?_append_left within]
  -- Directories were made before the first file, so what the files left alone was left alone.
  have untouched : ∀ q, (∀ file ∈ done, q ≠ destination directory ++ [file.1]) →
      AsBefore (wayTo directory) before after q := by
    intro q other
    have kept := directoriesMade before directory q
    rw [made] at kept
    unfold AsBefore at kept ⊢
    rw [written.others q other]
    exact kept
  refine ⟨done.length,by omega,⟨name,text,by simp [split],refused,untouched _ ?_⟩,?_,?_⟩
  · intro file mem same
    have names : name = file.1 := by simpa using same
    exact fresh _ (List.mem_map_of_mem mem) name List.mem_cons_self names.symm
  · intro i within s found
    exact written.holds _ (List.mem_of_getElem? (doneAt i within s found))
  · intro q other
    refine untouched q ?_
    intro file mem
    obtain ⟨i,within,same⟩ := List.getElem_of_mem mem
    have inside : i < r.snapshots.length := by
      unfold captured at count
      omega
    have found : r.snapshots[i]? = some r.snapshots[i] := List.getElem?_eq_getElem inside
    have entry := doneAt i within _ found
    rw [List.getElem?_eq_getElem within,Option.some_inj,same] at entry
    rw [entry]
    exact other i within _ found

theorem dumpFails {r : Recording} {directory : String} {fault : FileFault} {before after : Tree}
    (failed : r.dump directory before = (.error fault,after)) :
    (before.makeDirectories directory).1 = .error fault ∧
        (∀ q, AsBefore (wayTo directory) before after q) ∨
      (before.makeDirectories directory).1 = .ok (destination directory) ∧
        ∃ k, r.CutAt directory k fault before after := by
  have kept := directoriesMade before directory
  unfold dump at failed
  rcases made : before.makeDirectories directory with ⟨e | path,t⟩
  · rw [made] at failed kept
    cases failed
    exact .inl ⟨rfl,kept⟩
  · rw [made] at failed
    have same : path = destination directory := (directoryMade (by rw [made])).1
    subst same
    exact .inr ⟨rfl,filesCutAt made failed⟩

theorem CutAt.summary {r : Recording} {directory : String} {k : Nat} {fault : FileFault}
    {before after : Tree} (cut : r.CutAt directory k fault before after) :
    AsBefore (wayTo directory) before after (destination directory ++ [summaryName]) := by
  refine cut.others _ ?_
  intro i within s found same
  have names : summaryName = s.fileName i := by simpa using same
  exact s.fileNameNotSummary i names.symm

theorem dumpCutShort {r : Recording} {directory : String} {fault : FileFault} {before after : Tree}
    (failed : r.dump directory before = (.error fault,after)) :
    AsBefore (wayTo directory) before after (destination directory ++ [summaryName]) ∧
    (".." ∉ namesOf directory → after.find? (destination directory ++ [summaryName]) =
      before.find? (destination directory ++ [summaryName])) ∧
    ((before.makeDirectories directory).1 = .error fault ∧
        (∀ q, AsBefore (wayTo directory) before after q) ∨
      (before.makeDirectories directory).1 = .ok (destination directory) ∧
        ∃ k, r.CutAt directory k fault before after) := by
  have outcome := dumpFails failed
  have summary : AsBefore (wayTo directory) before after
      (destination directory ++ [summaryName]) := by
    cases outcome with
    | inl notMade => exact notMade.2 _
    | inr cutShort =>
      obtain ⟨_,k,cut⟩ := cutShort
      exact cut.summary
  exact ⟨summary,summary.unchanged,outcome⟩

def blockedTree : Tree :=
  ⟨[(["out"],.directory),(["out","frame_002_iter_000007.txt"],.directory),
    (["out","sequence.json"],.file "old")],by decide⟩

theorem dumpCutShortBlocked : (repeated.dump "out/new/.." blockedTree).1 = .error .isDirectory ∧
    AsBefore (wayTo "out/new/..") blockedTree (repeated.dump "out/new/.." blockedTree).2
      ["out","sequence.json"] ∧
    ∃ k, repeated.CutAt "out/new/.." k .isDirectory blockedTree
      (repeated.dump "out/new/.." blockedTree).2 := by
  have failed : (repeated.dump "out/new/.." blockedTree).1 = .error .isDirectory := by
    decide +kernel
  have place : destination "out/new/.." = ["out"] := by decide +kernel
  have notRefused : (blockedTree.makeDirectories "out/new/..").1 ≠ .error .isDirectory := by
    decide +kernel
  obtain ⟨summary,_,outcome⟩ := dumpCutShort (Prod.ext failed rfl)
  rw [place] at summary
  exact ⟨failed,summary,(outcome.resolve_left fun notMade => notRefused notMade.1).2⟩

/- A way that leads through the place of the summary and back makes a directory there. -/
theorem summaryMadeDirectory :
    (Recording.empty.dump "sequence.json/.." Tree.empty).1 = .error .isDirectory ∧
    destination "sequence.json/.." ++ [summaryName] = ["sequence.json"] ∧
    Tree.empty.find? ["sequence.json"] = none ∧
    (Recording.empty.dump "sequence.json/.." Tree.empty).2.find? ["sequence.json"] =
      some .directory := by
  decide +kernel

end PaneWatch.Recording
