import Mathlib.Data.String.Basic
import PaneWatch.Proofs.Files.Writes
import PaneWatch.Proofs.Recording.RoundTrip

/-! What a recording leaves behind in a directory: a file for each snapshot, under names that
never meet, and a summary that reads as JSON, repeats all but the texts and leads to those files. -/
namespace PaneWatch
open Json

def Json.Value.member? (name : String) : Value → Option Value
  | .object members => members.lookup name
  | _ => none

theorem Text.utf8Least (cs : List Char) : cs.length ≤ (String.ofList cs).utf8ByteSize := by
  rw [String.utf8ByteSize_ofList]
  induction cs with
  | nil => exact Nat.zero_le _
  | cons c cs ih =>
    have := c.utf8Size_pos
    simp only [List.length_cons,String.utf8Len_cons]
    omega

namespace Snapshot

theorem fileNameText (s : Snapshot) (i : Nat) : ∃ rest, Text.NoDigit rest ∧
    (s.fileName i).toList = "frame_".toList ++ (Text.padded 3 (i + 1) ++ rest) := by
  refine ⟨"_iter_".toList ++ Text.padded 6 s.iteration.toNat ++ ".txt".toList,?_,by simp [fileName]⟩
  intro c first
  cases first
  rfl

/- The numeral ends where the letters go on, at any width, so it gives the position away. -/
theorem fileNamePosition {s u : Snapshot} {i j : Nat} (same : s.fileName i = u.fileName j) :
    i = j := by
  obtain ⟨rest,stop,text⟩ := fileNameText s i
  obtain ⟨more,halt,other⟩ := fileNameText u j
  rw [same,other,List.append_cancel_left_eq] at text
  have numbers := Text.paddedTaken 3 (i + 1) stop
  rw [← text,Text.paddedTaken 3 (j + 1) halt] at numbers
  have := Text.paddedInj (Prod.mk.inj (Option.some.inj numbers)).1
  omega

theorem fileNameNotSummary (s : Snapshot) (i : Nat) : s.fileName i ≠ Recording.summaryName := by
  intro same
  have texts := congrArg String.toList same
  simp [fileName,Recording.summaryName] at texts

theorem fileNameRoom (s : Snapshot) (i : Nat) :
    (Text.decimal (i + 1)).length ≤ (s.fileName i).utf8ByteSize := by
  have room := Text.utf8Least (Text.padded 3 (i + 1))
  simp only [Text.padded,List.length_append] at room
  simp only [fileName,Text.padded,String.utf8ByteSize_append]
  omega

theorem summaryLawful {r : Rigour} (s : Snapshot) (i : Nat) : (s.summaryValue i).Lawful r :=
  ⟨Value.naturalLawful (by have := s.iteration.toNat_lt; omega),
    Value.optionLawful Value.stringLawful s.elapsed,
    Value.optionLawful (fun m : Mode => Value.stringLawful m.label) s.mode,
    Value.stringLawful _,trivial,trivial⟩

structure Listed (s : Snapshot) (position : Nat) (entry : Value) : Prop where
  shared : ∀ name, name ≠ "content" → name ≠ "file" → entry.member? name = s.toValue.member? name
  noContent : entry.member? "content" = none
  file : entry.member? "file" = some (.string (s.fileName position))

theorem summaryListed (s : Snapshot) (i : Nat) : s.Listed i (s.summaryValue i) := by
  refine ⟨fun name notContent notFile => ?_,rfl,rfl⟩
  simp only [summaryValue,toValue,Value.member?,List.lookup_cons,beq_false_of_ne notContent,
    beq_false_of_ne notFile]

end Snapshot

namespace Recording

def frameNames (r : Recording) : List String := r.snapshots.zipIdx.map fun (s,i) => s.fileName i

structure Summarized (r : Recording) (summary : Value) : Prop where
  captured : summary.member? "iterations_captured" = some (.integer r.captured)
  exitCode : summary.member? "final_exit_code" =
    some (.ofOption (fun code => .integer code.toInt) r.exitCode)
  timedOut : summary.member? "timed_out" = some (.bool r.timedOut)
  frames : ∃ frames : List Value, summary.member? "frames" = some (.array frames) ∧
    frames.length = r.captured ∧
    ∀ (i : Nat) s, r.snapshots[i]? = some s → ∃ entry, frames[i]? = some entry ∧ s.Listed i entry

structure Dumped (r : Recording) (path : Path) (before after : Tree) : Prop where
  apart : (r.frameNames ++ [summaryName]).Nodup
  texts : ∀ (i : Nat) s, r.snapshots[i]? = some s →
    after.find? (path ++ [s.fileName i]) = some (.file s.content)
  summary : ∃ text summary, after.find? (path ++ [summaryName]) = some (.file text) ∧
    Value.ofText text.toList = .ok summary ∧ r.Summarized summary
  files : ∀ q, (∀ name ∈ r.frameNames ++ [summaryName], q ≠ path ++ [name]) →
    ∀ text, after.find? q = some (.file text) ↔ before.find? q = some (.file text)
  directories : before.Reaches after

theorem frameNamesApart (r : Recording) : (r.frameNames ++ [summaryName]).Nodup := by
  have positions : (r.snapshots.zipIdx.map Prod.snd).Nodup := by
    rw [List.zipIdx_map_snd]
    exact List.nodup_range'
  have frames : r.frameNames.Nodup :=
    List.pairwise_map.mpr ((List.pairwise_map.mp positions).imp fun apart same =>
      apart (Snapshot.fileNamePosition same))
  have notSummary : summaryName ∉ r.frameNames := by
    intro mem
    obtain ⟨⟨s,i⟩,_,same⟩ := List.mem_map.mp mem
    exact s.fileNameNotSummary i same
  exact List.nodup_append.mpr ⟨frames,by simp,by
    rintro name mem _ last rfl
    rw [List.mem_singleton.mp last] at mem
    exact notSummary mem⟩

theorem fileNames (r : Recording) : r.files.map Prod.fst = r.frameNames ++ [summaryName] := by
  simp [files,frameNames,Function.comp_def]

theorem frameFile {r : Recording} {i : Nat} {s : Snapshot} (found : r.snapshots[i]? = some s) :
    (s.fileName i,s.content) ∈ r.files :=
  List.mem_append_left _ (List.mem_map.mpr ⟨(s,i),List.mk_mem_zipIdx_iff_getElem?.mpr found,rfl⟩)

theorem summaryFile (r : Recording) :
    (summaryName,String.ofList r.summaryValue.indented) ∈ r.files :=
  List.mem_append_right _ (List.mem_singleton_self _)

/- The last name holds the count in full, and a name has at most 255 bytes. -/
theorem countExact {r : Recording}
    (short : ∀ file ∈ r.files, file.1.utf8ByteSize ≤ Tree.nameLimit) :
    r.captured < doubleLimit := by
  have large : 10^255 < doubleLimit := by decide +kernel
  refine Nat.lt_trans ?_ large
  rcases last : r.snapshots.getLast? with _ | s
  · have none : r.snapshots = [] := by simpa using last
    rw [captured,none]
    exact Nat.pow_pos (by decide)
  · have some := last
    rw [List.getLast?_eq_getElem?] at some
    have positive : 0 < r.snapshots.length := by
      by_contra none
      simp_all
    have room := (s.fileNameRoom _).trans (short _ (frameFile some))
    rw [Nat.sub_add_cancel positive] at room
    exact (Text.decimalLength (by decide)).mp room

theorem summaryLawful {r : Recording} (exact : r.captured < doubleLimit) :
    r.summaryValue.Lawful .strict :=
  ⟨fun _ => exact,r.exitCodeLawful,trivial,
    Value.arrayLawful (fun (s,i) => Snapshot.summaryLawful s i) r.snapshots.zipIdx,trivial⟩

theorem summarized (r : Recording) : r.Summarized r.summaryValue := by
  refine ⟨rfl,rfl,rfl,_,rfl,by simp [captured],fun i s found => ?_⟩
  refine ⟨s.summaryValue i,?_,s.summaryListed i⟩
  simp [found]

theorem dumped {r : Recording} {directory : String} {before after : Tree}
    (ok : r.dump directory before = (.ok (),after)) :
    ∃ path, (before.makeDirectories directory).1 = .ok path ∧ r.Dumped path before after ∧
      r.dump directory after = (.ok (),after) := by
  unfold dump at ok ⊢
  rcases made : before.makeDirectories directory with ⟨_ | path,t⟩
  · rw [made] at ok
    cases ok
  rw [made] at ok
  obtain ⟨grows,kept,again⟩ := Tree.madeDirectories made
  have house : t.find? path = some .directory := by
    have ends := Tree.directoryMade (congrArg Prod.fst made)
    rw [made] at ends
    exact ends.2
  have apart := r.frameNamesApart
  have written := Tree.filesWritten (r.fileNames ▸ apart) ok
  have lawful := summaryLawful (countExact fun file mem => (written.fit file mem).short)
  refine ⟨path,rfl,⟨apart,fun i s found => ?_,?_,fun q other text => ?_,fun q there => ?_⟩,?_⟩
  · exact written.holds _ (frameFile found)
  · refine ⟨_,r.summaryValue,written.holds _ r.summaryFile,?_,r.summarized⟩
    rw [String.toList_ofList]
    exact documentReads indentedBlank lawful
  · have notWritten : ∀ file ∈ r.files, q ≠ path ++ [file.1] := by
      intro file mem
      exact other _ (r.fileNames ▸ List.mem_map_of_mem mem)
    rw [written.others q notWritten,kept]
  · exact written.reaches q (grows q there)
  · rw [again after written.reaches]
    exact Tree.filesAgain (written.reaches path house) written.fit written.holds

def repeated : Recording :=
  let shown (n : UInt32) (text : String) : Snapshot := ⟨⟨n,text,some "1s",none⟩,.epoch⟩
  ⟨[shown 7 "one",shown 7 "two",shown 1234567 "two"],some (-1),true⟩

def staleTree : Tree :=
  ⟨[(["out"],.directory),(["out","sequence.json"],.file "old"),(["out","notes"],.file "kept")],
    by decide⟩

theorem dumpedRepeated : (repeated.dump "out/./later/.." staleTree).1 = .ok () ∧
    ∃ path, (staleTree.makeDirectories "out/./later/..").1 = .ok path ∧
      repeated.Dumped path staleTree (repeated.dump "out/./later/.." staleTree).2 ∧
      repeated.dump "out/./later/.." (repeated.dump "out/./later/.." staleTree).2 =
        (.ok (),(repeated.dump "out/./later/.." staleTree).2) := by
  have ok : (repeated.dump "out/./later/.." staleTree).1 = .ok () := by decide +kernel
  exact ⟨ok,dumped (Prod.ext ok rfl)⟩

end Recording
end PaneWatch
