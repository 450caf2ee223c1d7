import PaneWatch.Proofs.Text.Pattern

/-! Trimming, said apart from how it is done. The trimmed text is the one part of a text that has
nothing but blanks on either side of it and neither begins nor ends with a blank. -/
namespace PaneWatch.Text

structure Bare (cs : List Char) : Prop where
  first : ∀ c ∈ cs.head?, isBlank c = false
  last : ∀ c ∈ cs.getLast?, isBlank c = false

structure Trimmed (text core : List Char) : Prop where
  bare : Bare core
  around : ∃ before ∈ manyOf isBlank, ∃ after ∈ manyOf isBlank, text = before ++ core ++ after

theorem blankReversed {cs : List Char} (blank : cs ∈ manyOf isBlank) :
    cs.reverse ∈ manyOf isBlank := by
  intro c mem
  exact blank c (List.mem_reverse.mp mem)

theorem startFirst (cs : List Char) : ∀ c ∈ (trimStart cs).head?, isBlank c = false := by
  intro c first
  have stop := List.head?_dropWhile_not isBlank cs
  unfold trimStart at first
  rwa [first] at stop

theorem startSplit (cs : List Char) : ∃ before ∈ manyOf isBlank, cs = before ++ trimStart cs :=
  ⟨cs.takeWhile isBlank,fun _ mem => List.mem_takeWhile_imp mem,
    List.takeWhile_append_dropWhile.symm⟩

theorem startBlank {before : List Char} (blank : before ∈ manyOf isBlank) (cs : List Char) :
    trimStart (before ++ cs) = trimStart cs :=
  List.dropWhile_append_of_pos blank

theorem startBare {cs : List Char} (bare : Bare cs) : trimStart cs = cs := by
  cases cs with
  | nil => rfl
  | cons c cs => exact List.dropWhile_cons_of_neg (by simp [bare.first c rfl])

theorem endSplit (cs : List Char) : ∃ after ∈ manyOf isBlank, cs = trimEnd cs ++ after := by
  obtain ⟨before,blank,same⟩ := startSplit cs.reverse
  refine ⟨before.reverse,blankReversed blank,?_⟩
  have back := congrArg List.reverse same
  rwa [List.reverse_reverse,List.reverse_append] at back

theorem endLast (cs : List Char) : ∀ c ∈ (trimEnd cs).getLast?, isBlank c = false := by
  intro c last
  unfold trimEnd at last
  rw [List.getLast?_reverse] at last
  exact startFirst cs.reverse c last

theorem endBlank {after : List Char} (blank : after ∈ manyOf isBlank) (cs : List Char) :
    trimEnd (cs ++ after) = trimEnd cs := by
  have dropped := startBlank (blankReversed blank) cs.reverse
  unfold trimStart at dropped
  rw [trimEnd,List.reverse_append,dropped,trimEnd]

theorem endBare {cs : List Char} (bare : Bare cs) : trimEnd cs = cs := by
  have backwards : Bare cs.reverse :=
    ⟨by simpa using bare.last,by simpa using bare.first⟩
  have kept := startBare backwards
  unfold trimStart at kept
  rw [trimEnd,kept,List.reverse_reverse]

theorem trimIsBare (cs : List Char) : Bare (trim cs) := by
  refine ⟨?_,endLast (trimStart cs)⟩
  intro c first
  obtain ⟨after,_,same⟩ := endSplit (trimStart cs)
  have start := startFirst cs
  rw [same,List.head?_append] at start
  unfold trim at first
  exact start c (by rw [first]; rfl)

theorem trimmedTrim (cs : List Char) : Trimmed cs (trim cs) := by
  obtain ⟨before,blankBefore,front⟩ := startSplit cs
  obtain ⟨after,blankAfter,back⟩ := endSplit (trimStart cs)
  refine ⟨trimIsBare cs,before,blankBefore,after,blankAfter,?_⟩
  calc cs = before ++ trimStart cs := front
    _ = before ++ (trim cs ++ after) := congrArg (before ++ ·) back
    _ = before ++ trim cs ++ after := (List.append_assoc ..).symm

theorem trimExactly {text core : List Char} : trim text = core ↔ Trimmed text core := by
  constructor
  · intro same
    exact same ▸ trimmedTrim text
  · intro trimmed
    obtain ⟨before,blankBefore,after,blankAfter,same⟩ := trimmed.around
    have bare := trimmed.bare
    rw [same,trim,List.append_assoc,startBlank blankBefore]
    cases core with
    | nil =>
      have none := startBlank blankAfter []
      rw [List.append_nil] at none
      rw [List.nil_append,none]
      rfl
    | cons c core =>
      have kept : trimStart (c::core ++ after) = c::core ++ after :=
        List.dropWhile_cons_of_neg (by simp [bare.first c rfl])
      rw [kept,endBlank blankAfter,endBare bare]

/- The characters that show. Trimming keeps them all. -/
def ink (cs : List Char) : List Char := cs.filter fun c => !isBlank c

theorem inkAppend (cs ds : List Char) : ink (cs ++ ds) = ink cs ++ ink ds := List.filter_append ..

theorem inkBlank {cs : List Char} (blank : cs ∈ manyOf isBlank) : ink cs = [] := by
  refine List.filter_eq_nil_iff.mpr fun c mem => ?_
  simp [blank c mem]

theorem inkTrim (cs : List Char) : ink (trim cs) = ink cs := by
  obtain ⟨before,blankBefore,after,blankAfter,same⟩ := (trimmedTrim cs).around
  have whole := congrArg ink same
  rw [inkAppend,inkAppend,inkBlank blankBefore,inkBlank blankAfter] at whole
  rw [whole,List.nil_append,List.append_nil]

theorem inkLast {cs : List Char} {c : Char} : (ink cs).getLast? = some c ↔
    isBlank c = false ∧ ∃ front, ∃ back ∈ manyOf isBlank, cs = front ++ c::back := by
  unfold ink
  rw [List.getLast?_filter,List.find?_eq_some_iff_append,Bool.not_eq_true']
  constructor
  · intro found
    obtain ⟨shows,back,front,same,blank⟩ := found
    have backwards := congrArg List.reverse same
    rw [List.reverse_reverse] at backwards
    refine ⟨shows,front.reverse,back.reverse,blankReversed ?_,by simpa using backwards⟩
    intro d mem
    simpa using blank d mem
  · intro found
    obtain ⟨shows,front,back,blank,same⟩ := found
    refine ⟨shows,back.reverse,front.reverse,by simp [same],?_⟩
    intro d mem
    simp [blank d (List.mem_reverse.mp mem)]

end PaneWatch.Text
