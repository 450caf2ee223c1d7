import PaneWatch.Marker
import PaneWatch.Proofs.Text.Pattern

/-! The mode on screen. A label in ASCII letters of either case names its mode where it is the
leftmost label. The search also takes `observe` with a long s in place of its `s` for a label.
Such a label names no mode, and where it stands leftmost the text has none. -/
namespace PaneWatch.Marker
open Text

/- A label with the mode that it names, or with none if it has a long s. -/
inductive LabelHere : Pattern (Option Mode) where
  | named {m : Mode} {label : List Char} (rest : List Char)
      (spelt : label ∈ anyCase m.label.toList) : LabelHere (label ++ rest) (some m)
  | longS {label : List Char} (rest : List Char)
      (spelt : label ∈ anyCase ['o','b'] * {['ſ']} * anyCase ['e','r','v','e']) :
      LabelHere (label ++ rest) none

def playing : Language Char := oneOf isPlayGlyph * manyOf isBlank

def ModeHere : Pattern (Option Mode) := Then playing LabelHere

def modeOf (label : List Char) : Option Mode :=
  Mode.ofLabel? (String.ofList (label.map Char.toLower))

theorem namedMode {m : Mode} {label : List Char} (spelt : label ∈ anyCase m.label.toList) :
    modeOf label = some m := by
  rw [modeOf,show label.map Char.toLower = m.label.toList from spelt]
  cases m <;> decide

theorem longSMode {label : List Char}
    (spelt : label ∈ anyCase ['o','b'] * {['ſ']} * anyCase ['e','r','v','e']) :
    modeOf label = none := by
  obtain ⟨_,first,last,tail,rfl⟩ := Language.mem_mul.mp spelt
  obtain ⟨front,head,_,rfl,rfl⟩ := Language.mem_mul.mp first
  have lowered : (front ++ ['ſ'] ++ last).map Char.toLower = "obſerve".toList := by
    rw [List.map_append,List.map_append,show front.map Char.toLower = _ from head,
      show last.map Char.toLower = _ from tail]
    decide
  rw [modeOf,lowered]
  decide

abbrev Folds : List Char → List Char → Prop := List.Forall₂ fun w c => foldsTo w c = true

theorem foldsPlain {w c : Char} (plain : w ≠ 's') : foldsTo w c = true ↔ c.toLower = w := by
  simp [foldsTo,plain]

theorem foldedSound {word cs label : List Char} (found : foldedWord? word cs = some label) :
    ∃ rest, cs = label ++ rest ∧ Folds word label := by
  induction word generalizing cs label with
  | nil =>
    cases found
    exact ⟨cs,rfl,.nil⟩
  | cons w word ih =>
    cases cs with
    | nil => cases found
    | cons c cs =>
      rw [foldedWord?] at found
      split at found
      · obtain ⟨tail,shown,rfl⟩ := Option.map_eq_some_iff.mp found
        obtain ⟨rest,rfl,folds⟩ := ih shown
        exact ⟨rest,rfl,.cons (by assumption) folds⟩
      · cases found

theorem foldedComplete {word label : List Char} (folds : Folds word label) (rest : List Char) :
    foldedWord? word (label ++ rest) = some label := by
  induction folds with
  | nil => cases rest <;> rfl
  | cons letter folds ih => rw [List.cons_append,foldedWord?,if_pos letter,ih,Option.map_some]

theorem plainFolded {word label : List Char} (plain : 's' ∉ word) (folds : Folds word label) :
    label ∈ anyCase word := by
  induction folds with
  | nil => rfl
  | cons letter rest ih =>
    obtain ⟨first,others⟩ := List.ne_and_not_mem_of_not_mem_cons plain
    exact congrArg₂ List.cons ((foldsPlain first.symm).mp letter) (ih others)

theorem caseFolds {word label : List Char} (spelt : label ∈ anyCase word) : Folds word label := by
  cases spelt
  refine List.forall₂_map_left_iff.mpr (List.forall₂_same.mpr fun c _ => ?_)
  simp [foldsTo]

theorem observeFolded {label : List Char} (folds : Folds ['o','b','s','e','r','v','e'] label) :
    label ∈ anyCase ['o','b','s','e','r','v','e'] ∨
      label ∈ anyCase ['o','b'] * {['ſ']} * anyCase ['e','r','v','e'] := by
  rcases folds with _ | ⟨o,_ | ⟨b,_ | ⟨s,rest⟩⟩⟩
  have tail := plainFolded (by decide) rest
  have head := plainFolded (by decide) (.cons o (.cons b .nil))
  simp only [foldsTo,Bool.or_eq_true,beq_iff_eq,beq_self_eq_true,Bool.true_and] at s
  rcases s with ascii | rfl
  · exact .inl (congrArg₂ (· ++ ·) head (congrArg₂ List.cons ascii tail))
  · exact .inr ⟨_,⟨_,head,_,rfl,rfl⟩,_,tail,rfl⟩

theorem foldedStarts {m : Mode} {label : List Char} (folds : Folds m.label.toList label) :
    Starts (fun c => m.label.toList.head? = some c.toLower) label := by
  cases m <;> rcases folds with _ | ⟨first,_⟩ <;>
    exact startsCons.mpr (congrArg some ((foldsPlain (by decide)).mp first).symm)

theorem longSFolds {label : List Char}
    (spelt : label ∈ anyCase ['o','b'] * {['ſ']} * anyCase ['e','r','v','e']) :
    Folds ['o','b','s','e','r','v','e'] label := by
  obtain ⟨_,⟨front,head,_,rfl,rfl⟩,last,tail,rfl⟩ := spelt
  have middle : Folds ['s'] ['ſ'] := .cons rfl .nil
  exact List.rel_append (List.rel_append (caseFolds head) middle) (caseFolds tail)

theorem labelFolded {cs : List Char} {shown : Option Mode} :
    LabelHere cs shown ↔ ∃ (m : Mode) (label rest : List Char),
      cs = label ++ rest ∧ Folds m.label.toList label ∧ modeOf label = shown := by
  constructor
  · rintro (⟨rest,spelt⟩ | ⟨rest,spelt⟩)
    · exact ⟨_,_,rest,rfl,caseFolds spelt,namedMode spelt⟩
    · exact ⟨.observe,_,rest,rfl,longSFolds spelt,longSMode spelt⟩
  · rintro ⟨m,label,rest,rfl,folds,rfl⟩
    have kinds : label ∈ anyCase m.label.toList ∨
        label ∈ anyCase ['o','b'] * {['ſ']} * anyCase ['e','r','v','e'] := by
      cases m with
      | auto => exact .inl (plainFolded (by decide) folds)
      | interactive => exact .inl (plainFolded (by decide) folds)
      | observe => exact observeFolded folds
    rcases kinds with spelt | spelt
    · rw [namedMode spelt]
      exact .named rest spelt
    · rw [longSMode spelt]
      exact .longS rest spelt

theorem oneLabel {m n : Mode} {label other rest more : List Char}
    (same : label ++ rest = other ++ more) (folds : Folds m.label.toList label)
    (folded : Folds n.label.toList other) : m = n := by
  obtain ⟨c,first,head⟩ := startsAppend (foldedStarts folds) rest
  obtain ⟨d,second,initial⟩ := startsAppend (foldedStarts folded) more
  rw [same,second] at first
  cases first
  have told : ∀ m n : Mode, m.label.toList.head? = n.label.toList.head? → m = n := by
    intro m n
    cases m <;> cases n <;> decide
  exact told m n (head.trans initial.symm)

theorem labelFound {cs label : List Char} : labelHere? cs = some label ↔
    ∃ (m : Mode) (rest : List Char), cs = label ++ rest ∧ Folds m.label.toList label := by
  constructor
  · intro found
    obtain ⟨m,_,shown⟩ := List.exists_of_findSome?_eq_some found
    obtain ⟨rest,same,folds⟩ := foldedSound shown
    exact ⟨m,rest,same,folds⟩
  · rintro ⟨m,rest,rfl,folds⟩
    have shown := foldedComplete folds rest
    cases found : labelHere? (label ++ rest) with
    | none =>
      have absent := List.findSome?_eq_none_iff.mp found m (by cases m <;> decide)
      rw [shown] at absent
      cases absent
    | some other =>
      obtain ⟨n,_,also⟩ := List.exists_of_findSome?_eq_some found
      obtain ⟨more,same,folded⟩ := foldedSound also
      cases oneLabel same folds folded
      exact also.symm.trans shown

theorem labelRecognised : Recognises (fun cs => (labelHere? cs).map modeOf) LabelHere := by
  intro cs shown
  rw [Option.map_eq_some_iff,labelFolded]
  constructor
  · rintro ⟨label,found,mode⟩
    obtain ⟨m,rest,same,folds⟩ := labelFound.mp found
    exact ⟨m,label,rest,same,folds,mode⟩
  · rintro ⟨m,label,rest,same,folds,mode⟩
    exact ⟨label,labelFound.mpr ⟨m,rest,same,folds⟩,mode⟩

theorem labelNotBlank {cs : List Char} {shown : Option Mode} (found : LabelHere cs shown) :
    Starts (fun c => isBlank c = false) cs := by
  obtain ⟨m,label,rest,rfl,folds,_⟩ := labelFolded.mp found
  refine startsAs (startsAppend (foldedStarts folds) rest) fun c first => ?_
  have lower : m.label.toList.head?.all Char.isLower = true := by cases m <;> decide
  exact letterNotBlank (letterOfCase ((Option.all_eq_true _ _).mp lower _ first) rfl)

theorem modeRecognised : Recognises (fun cs => (modeHere? cs).map modeOf) ModeHere := by
  have steps := (oneTaken isPlayGlyph).before
    ((manyTaken isBlank).before labelRecognised fun _ _ => labelNotBlank)
    fun _ _ _ => trivial
  rw [ModeHere,playing,thenMul]
  intro cs shown
  rw [← steps]
  cases cs with
  | nil => rfl
  | cons c cs => cases glyph : isPlayGlyph c <;> simp [modeHere?,afterOne?,glyph,trimStart]

theorem glyphApart {c : Char} (glyph : isPlayGlyph c = true) :
    isBlank c = false ∧ ∀ w, w.isLower = true → foldsTo w c = false := by
  have kind : c = '▶' ∨ c = '►' := by simpa [isPlayGlyph] using glyph
  have told : isBlank c = false ∧ c.toLower.isLower = false ∧ c ≠ 'ſ' := by
    cases kind <;> subst c <;> exact ⟨rfl,rfl,by decide⟩
  obtain ⟨notBlank,notLower,notLong⟩ := told
  refine ⟨notBlank,?_⟩
  intro w lower
  have other : c.toLower ≠ w := by
    intro same
    rw [same,lower] at notLower
    cases notLower
  simp [foldsTo,other,notLong]

theorem foldedNoGlyph {word label : List Char} (lower : word.all Char.isLower = true)
    (folds : Folds word label) : ∀ c ∈ label, isPlayGlyph c = false := by
  induction folds with
  | nil => simp
  | cons letter rest ih =>
    simp only [List.all_cons,Bool.and_eq_true] at lower
    refine List.forall_mem_cons.mpr ⟨?_,ih lower.2⟩
    by_contra glyph
    rw [(glyphApart (by simpa using glyph)).2 _ lower.1] at letter
    contradiction

theorem modeWord {cs : List Char} {shown : Option Mode} (found : ModeHere cs shown) :
    ∃ (glyph : Char) (tail rest : List Char), cs = glyph::tail ++ rest ∧
      isPlayGlyph glyph = true ∧ (∀ c ∈ tail, isPlayGlyph c = false) ∧
      ∀ more, ModeHere (glyph::tail ++ more) shown := by
  rw [ModeHere,playing,thenMul] at found
  obtain ⟨_,⟨glyph,play,rfl⟩,_,rfl,blanks,blank,_,rfl,labelled⟩ := found
  obtain ⟨m,label,rest,rfl,folds,mode⟩ := labelFolded.mp labelled
  refine ⟨glyph,blanks ++ label,rest,by simp,play,?_,?_⟩
  · intro c mem
    cases List.mem_append.mp mem with
    | inl inBlanks =>
      by_contra glyph
      have notBlank := (glyphApart (by simpa using glyph)).1
      rw [blank c inBlanks] at notBlank
      contradiction
    | inr inLabel => exact foldedNoGlyph (by cases m <;> decide) folds c inLabel
  · intro more
    rw [ModeHere,playing,thenMul]
    have labelled := labelFolded.mpr ⟨m,label,more,rfl,folds,mode⟩
    exact ⟨[glyph],⟨glyph,play,rfl⟩,blanks ++ (label ++ more),by simp,blanks,blank,_,rfl,labelled⟩

theorem modeFinal : Final ModeHere := by
  refine Final.opened (isPlayGlyph · = true) ?_ ?_ ?_
  · intro cs shown more found
    obtain ⟨glyph,tail,rest,same,_,_,word⟩ := modeWord found
    rw [same,List.append_assoc]
    exact word (rest ++ more)
  · intro cs shown found
    obtain ⟨glyph,tail,rest,same,play,_⟩ := modeWord found
    exact ⟨glyph,tail ++ rest,same,play⟩
  · intro part c more shown nonempty play found
    obtain ⟨glyph,tail,rest,same,_,single,word⟩ := modeWord found
    have once : c ∉ tail := fun mem => by
      rw [single c mem] at play
      contradiction
    obtain ⟨left,inside⟩ := wordWithin nonempty same once
    rw [← inside]
    exact word left

def NamedHere : Pattern Mode := fun cs m => ModeHere cs (some m)

theorem namedRecognised : Recognises (fun cs => (modeHere? cs).bind modeOf) NamedHere := by
  intro cs m
  rw [NamedHere,← modeRecognised,Option.map_eq_some_iff]
  exact Option.bind_eq_some_iff

theorem modeShown (text : String) :
    mode? text = (leftmost? (fun cs => (modeHere? cs).map modeOf) text.toList).join := by
  rw [leftmostMapped]
  rw [mode?]
  cases leftmost? modeHere? text.toList with
  | none => rfl
  | some label => rfl

theorem leftmostNamed {text : List Char} {m : Mode}
    (plain : ∀ rest, rest <:+ text → ¬ ModeHere rest none) :
    Leftmost ModeHere text (some m) ↔ Leftmost NamedHere text m := by
  constructor
  · rintro ⟨rest,suffix,found,first⟩
    exact ⟨rest,suffix,found,fun earlier later longer b => first earlier later longer (some b)⟩
  · rintro ⟨rest,suffix,found,first⟩
    refine ⟨rest,suffix,found,fun earlier later longer b => ?_⟩
    cases b with
    | none => exact plain earlier later
    | some b => exact first earlier later longer b

theorem nowhereNamed {text : List Char} (plain : ∀ rest, rest <:+ text → ¬ ModeHere rest none) :
    Nowhere ModeHere text ∨ Leftmost ModeHere text none ↔ Nowhere NamedHere text := by
  constructor
  · rintro (absent | ⟨rest,suffix,found,_⟩)
    · exact fun rest suffix m => absent rest suffix (some m)
    · exact absurd found (plain rest suffix)
  · intro absent
    refine .inl fun rest suffix b => ?_
    cases b with
    | none => exact plain rest suffix
    | some b => exact absent rest suffix b

theorem modeOfLeftmostLabel (text : String) :
    (∀ m, mode? text = some m ↔ Leftmost ModeHere text.toList (some m)) ∧
    (mode? text = none ↔
      Nowhere ModeHere text.toList ∨ Leftmost ModeHere text.toList none) ∧
    ((∀ rest, rest <:+ text.toList → ¬ ModeHere rest none) →
      (∀ m, mode? text = some m ↔ Leftmost NamedHere text.toList m) ∧
      (mode? text = none ↔ Nowhere NamedHere text.toList)) := by
  have shown : ∀ m, mode? text = some m ↔ Leftmost ModeHere text.toList (some m) := by
    intro m
    rw [modeShown,Option.join_eq_some_iff,modeRecognised.leftmost]
  have hidden : mode? text = none ↔
      Nowhere ModeHere text.toList ∨ Leftmost ModeHere text.toList none := by
    rw [modeShown,Option.join_eq_none_iff,modeRecognised.nowhere,modeRecognised.leftmost]
  refine ⟨shown,hidden,fun plain => ⟨fun m => ?_,?_⟩⟩
  · rw [shown,leftmostNamed plain]
  · rw [hidden,nowhereNamed plain]

theorem modeOfLeftmostLabelMixedCase :
    Leftmost NamedHere "► ſauto ▶\u2003InterActive ▶ auto".toList .interactive := by
  have plain : ∀ rest, rest <:+ "► ſauto ▶\u2003InterActive ▶ auto".toList →
      ¬ ModeHere rest none := by
    intro rest suffix
    rw [← modeRecognised]
    revert rest
    simp only [← List.mem_tails]
    decide
  exact ((modeOfLeftmostLabel _).2.2 plain).1 .interactive |>.mp (by decide)

theorem longSHidesMode :
    Leftmost NamedHere "▶ obſerve ▶ auto".toList .auto ∧ mode? "▶ obſerve ▶ auto" = none :=
  ⟨(namedRecognised.leftmost _ _).mp (by decide),by decide⟩

end PaneWatch.Marker
