import PaneWatch.Files.Tree

/-! What making directories and writing files does to a tree, path by path, and that doing the
same once more does nothing. -/
namespace PaneWatch.Tree

theorem replacedSame {path : Path} {e : Entry} {entries : List (Path × Entry)}
    (found : entries.lookup path = some e) : replaced path e entries = entries := by
  induction entries with
  | nil => cases found
  | cons entry entries ih =>
    obtain ⟨p,old⟩ := entry
    by_cases here : p = path
    · subst p
      simp_all [replaced]
    · have there : (path == p) = false := by simpa using Ne.symm here
      simp only [List.lookup_cons,there] at found
      simp [replaced,here,ih found]

theorem setSame {t : Tree} {directory : Path} {name : String} {e : Entry} {house keeps}
    (found : t.find? (directory ++ [name]) = some e) : t.set directory name e house keeps = t := by
  obtain ⟨entries,formed⟩ := t
  rw [find?,entryAt?,if_neg (childBelow directory name)] at found
  simp only [set,replacedSame found]

def Reaches (t u : Tree) : Prop := ∀ q, t.find? q = some .directory → u.find? q = some .directory

def SameFiles (t u : Tree) : Prop :=
  ∀ q text, u.find? q = some (.file text) ↔ t.find? q = some (.file text)

/- The directories that a path leads through, and the one in which it ends. A step up leads to no
directory that the path has not been through. -/
def way (here : Path) : List String → List Path
  | [] => []
  | name::rest =>
    if name = "." then way here rest
    else if name = ".." then way here.dropLast rest
    else (here ++ [name])::way (here ++ [name]) rest

def target (here : Path) : List String → Path
  | [] => here
  | name::rest =>
    if name = "." then target here rest
    else if name = ".." then target here.dropLast rest
    else target (here ++ [name]) rest

inductive Walk : Tree → Bool → Path → List String → Except FileFault Path × Tree → Prop where
  | arrived {t made here} (there : t.find? here = some .directory) :
      Walk t made here [] (.ok here,t)
  | stays {t made here names out} (rest : Walk t made here names out) :
      Walk t made here ("."::names) out
  | up {t made here names out} (rest : Walk t made here.dropLast names out) :
      Walk t made here (".."::names) out
  | refused {t made here name names fault} (plain : name ≠ "." ∧ name ≠ "..") :
      Walk t made here (name::names) (.error fault,t)
  | entered {t made here name names out} (plain : name ≠ "." ∧ name ≠ "..")
      (short : name.utf8ByteSize ≤ nameLimit)
      (there : t.find? (here ++ [name]) = some .directory)
      (rest : Walk t made (here ++ [name]) names out) : Walk t made here (name::names) out
  | makes {t made here name names out} (plain : name ≠ "." ∧ name ≠ "..")
      (short : name.utf8ByteSize ≤ nameLimit) (house : t.find? here = some .directory)
      (free : t.find? (here ++ [name]) = none)
      (rest : Walk (t.set here name .directory house fun _ => rfl) true (here ++ [name]) names out) :
      Walk t made here (name::names) out

theorem walkCases (t : Tree) (made : Bool) (here : Path) (there : t.find? here = some .directory)
    (names : List String) : Walk t made here names (walk t made here there names) := by
  induction names generalizing t made here with
  | nil => exact .arrived there
  | cons name rest ih =>
    unfold walk
    by_cases dot : name = "."
    · rw [if_pos dot,dot]
      exact .stays (ih t made here there)
    by_cases up : name = ".."
    · rw [if_neg dot,if_pos up,up]
      exact .up (ih t made here.dropLast (above there))
    rw [if_neg dot,if_neg up]
    split
    · exact .refused ⟨dot,up⟩
    · rename_i long
      have short := Nat.le_of_not_lt long
      split
      · rename_i found
        exact .entered ⟨dot,up⟩ short found (ih t made _ found)
      · exact .refused ⟨dot,up⟩
      · rename_i free
        split
        · exact .refused ⟨dot,up⟩
        · exact .makes ⟨dot,up⟩ short there free (ih _ true _ findNew)

theorem walkEntered {t : Tree} {made : Bool} {here : Path} {name : String} {names : List String}
    (plain : name ≠ "." ∧ name ≠ "..") (short : name.utf8ByteSize ≤ nameLimit)
    (there : t.find? here = some .directory) (found : t.find? (here ++ [name]) = some .directory) :
    walk t made here there (name::names) = walk t made (here ++ [name]) found names := by
  rw [walk,if_neg plain.1,if_neg plain.2,if_neg (Nat.not_lt.mpr short)]
  split
  · rfl
  · rename_i file
    rw [found] at file
    cases file
  · rename_i free
    rw [found] at free
    cases free

/- What is found at `q` is what was found there, or it is a directory where nothing was, and one
that the way leads through. -/
def AsBefore (way : List Path) (t u : Tree) (q : Path) : Prop :=
  u.find? q = t.find? q ∨ q ∈ way ∧ t.find? q = none ∧ u.find? q = some .directory

theorem walkMakes {t : Tree} {made : Bool} {here : Path} {names : List String} {out}
    (walked : Walk t made here names out) (q : Path) : AsBefore (way here names) t out.2 q := by
  induction walked with
  | arrived there => exact .inl rfl
  | stays rest ih => exact ih
  | up rest ih => exact ih
  | refused plain => exact .inl rfl
  | entered plain short there rest ih =>
    rw [way,if_neg plain.1,if_neg plain.2]
    exact ih.imp_right fun made => ⟨List.mem_cons_of_mem _ made.1,made.2⟩
  | @makes t made here name names out plain short house free rest ih =>
    rw [way,if_neg plain.1,if_neg plain.2]
    unfold AsBefore at ih ⊢
    rw [findSet] at ih
    by_cases new : q = here ++ [name]
    · rw [if_pos new] at ih
      have there : out.2.find? q = some .directory := ih.elim id fun made => made.2.2
      exact .inr ⟨new ▸ List.mem_cons_self,new ▸ free,there⟩
    · rw [if_neg new] at ih
      exact ih.imp_right fun made => ⟨List.mem_cons_of_mem _ made.1,made.2⟩

theorem walkEnds {t : Tree} {made : Bool} {here path : Path} {names : List String} {out}
    (walked : Walk t made here names out) (ok : out.1 = .ok path) :
    path = target here names ∧ out.2.find? path = some .directory := by
  induction walked with
  | arrived there => cases ok; exact ⟨rfl,there⟩
  | stays rest ih => exact ih ok
  | up rest ih => exact ih ok
  | refused plain => cases ok
  | entered plain short there rest ih => rw [target,if_neg plain.1,if_neg plain.2]; exact ih ok
  | makes plain short house free rest ih =>
    rw [target,if_neg plain.1,if_neg plain.2]; exact ih ok

theorem asBeforeKeeps {way : List Path} {t u : Tree} (same : ∀ q, AsBefore way t u q) :
    Reaches t u ∧ SameFiles t u := by
  constructor
  · intro q there
    cases same q with
    | inl kept => rw [kept,there]
    | inr made => exact made.2.2
  · intro q text
    cases same q with
    | inl kept => rw [kept]
    | inr made => simp [made.2.1,made.2.2]

/- A walk that comes to its end comes to the same end, and makes nothing, in any tree that has all
directories of the tree it has left. -/
theorem walkAgain {t : Tree} {made : Bool} {here path : Path} {names : List String} {out}
    (walked : Walk t made here names out) (ok : out.1 = .ok path) (w : Tree) (again : Bool)
    (there : w.find? here = some .directory) (beyond : Reaches out.2 w) :
    walk w again here there names = (.ok path,w) := by
  induction walked generalizing again with
  | arrived old => cases ok; rfl
  | stays rest ih => exact ih ok again there beyond
  | up rest ih => exact ih ok again (above there) beyond
  | refused plain => cases ok
  | entered plain short old rest ih =>
    have kept := (asBeforeKeeps (walkMakes rest)).1
    rw [walkEntered plain short there (beyond _ (kept _ old))]
    exact ih ok again _ beyond
  | makes plain short house free rest ih =>
    have kept := (asBeforeKeeps (walkMakes rest)).1
    rw [walkEntered plain short there (beyond _ (kept _ findNew))]
    exact ih ok again _ beyond

def wayTo (directory : String) : List Path := way [] (namesOf directory)

def destination (directory : String) : Path := target [] (namesOf directory)

theorem targetBelow (here : Path) {names : List String} (level : ".." ∉ names) :
    here <+: target here names := by
  induction names generalizing here with
  | nil => exact List.prefix_refl here
  | cons name rest ih =>
    obtain ⟨notUp,level⟩ := List.ne_and_not_mem_of_not_mem_cons level
    unfold target
    rw [if_neg notUp.symm]
    split
    · exact ih here level
    · exact (List.prefix_append here [name]).trans (ih _ level)

theorem wayAbove {here : Path} {names : List String} (level : ".." ∉ names) {q : Path}
    (mem : q ∈ way here names) : q <+: target here names := by
  induction names generalizing here with
  | nil => cases mem
  | cons name rest ih =>
    obtain ⟨notUp,level⟩ := List.ne_and_not_mem_of_not_mem_cons level
    unfold way at mem
    unfold target
    rw [if_neg notUp.symm] at mem ⊢
    split at mem
    · rw [if_pos ‹_›]
      exact ih level mem
    · rw [if_neg ‹_›]
      cases List.mem_cons.mp mem with
      | inl here => exact here ▸ targetBelow _ level
      | inr later => exact ih level later

theorem AsBefore.unchanged {t u : Tree} {directory name : String}
    (before : AsBefore (wayTo directory) t u (destination directory ++ [name]))
    (level : ".." ∉ namesOf directory) :
    u.find? (destination directory ++ [name]) = t.find? (destination directory ++ [name]) := by
  refine before.resolve_right ?_
  intro ⟨onTheWay,_⟩
  have short := (wayAbove level onTheWay).length_le
  rw [List.length_append] at short
  exact absurd short (Nat.not_le.mpr (Nat.lt_succ_self _))

theorem directoriesMade (t : Tree) (directory : String) (q : Path) :
    AsBefore (wayTo directory) t (t.makeDirectories directory).2 q := by
  unfold makeDirectories
  split
  · exact .inl rfl
  · exact walkMakes (walkCases t false [] rfl (namesOf directory)) q

theorem directoryMade {t : Tree} {directory : String} {path : Path}
    (ok : (t.makeDirectories directory).1 = .ok path) :
    path = destination directory ∧ (t.makeDirectories directory).2.find? path = some .directory := by
  unfold makeDirectories at ok ⊢
  split at ok
  · cases ok
  · exact walkEnds (walkCases t false [] rfl (namesOf directory)) ok

theorem madeDirectories {t u : Tree} {directory : String} {path : Path}
    (ok : t.makeDirectories directory = (.ok path,u)) :
    Reaches t u ∧ SameFiles t u ∧
      ∀ w, Reaches u w → w.makeDirectories directory = (.ok path,w) := by
  obtain ⟨reaches,same⟩ := asBeforeKeeps (directoriesMade t directory)
  rw [ok] at reaches same
  refine ⟨reaches,same,?_⟩
  intro w beyond
  unfold makeDirectories at ok ⊢
  split at ok
  · cases ok
  · have walked := walkCases t false [] rfl (namesOf directory)
    rw [ok] at walked
    exact walkAgain walked rfl w false rfl beyond

structure Fit (directory name : String) : Prop where
  sound : pathFault? (joined directory name) = none
  short : name.utf8ByteSize ≤ nameLimit

theorem written {t u : Tree} {directory name text : String} {here : Path}
    (ok : t.writeFile directory here name text = .ok u) :
    Fit directory name ∧ t.find? (here ++ [name]) ≠ some .directory ∧
      ∃ house keeps, u = t.set here name (.file text) house keeps := by
  unfold writeFile at ok
  split at ok
  · cases ok
  rename_i sound
  split at ok
  · cases ok
  · cases ok
  rename_i house
  split at ok
  · cases ok
  rename_i long
  split at ok
  · cases ok
  rename_i free
  cases ok
  exact ⟨⟨sound,Nat.le_of_not_lt long⟩,free,_,_,rfl⟩

theorem writtenAgain {t : Tree} {directory name text : String} {here : Path}
    (fit : Fit directory name) (house : t.find? here = some .directory)
    (there : t.find? (here ++ [name]) = some (.file text)) :
    t.writeFile directory here name text = .ok t := by
  have free : t.find? (here ++ [name]) ≠ some .directory := by
    rw [there]
    nofun
  unfold writeFile
  rw [fit.sound]
  dsimp only
  split
  · rename_i gone
    rw [house] at gone
    cases gone
  · rename_i file
    rw [house] at file
    cases file
  · rw [if_neg (Nat.not_lt_of_le fit.short),dif_neg free,setSame there]

structure Written (directory : String) (here : Path) (files : List (String × String))
    (t u : Tree) : Prop where
  fit : ∀ file ∈ files, Fit directory file.1
  holds : ∀ file ∈ files, u.find? (here ++ [file.1]) = some (.file file.2)
  others : ∀ q, (∀ file ∈ files, q ≠ here ++ [file.1]) → u.find? q = t.find? q
  reaches : Reaches t u

theorem filesWritten {directory : String} {here : Path} {files : List (String × String)}
    {t u : Tree} (apart : (files.map Prod.fst).Nodup)
    (ok : writeFiles directory here files t = (.ok (),u)) : Written directory here files t u := by
  induction files generalizing t with
  | nil =>
    cases ok
    exact ⟨by simp,by simp,fun _ _ => rfl,fun _ there => there⟩
  | cons file files ih =>
    obtain ⟨name,text⟩ := file
    obtain ⟨fresh,apart⟩ := List.nodup_cons.mp apart
    unfold writeFiles at ok
    split at ok
    · cases ok
    rename_i v write
    obtain ⟨fit,free,house,keeps,rfl⟩ := written write
    have rest := ih apart ok
    have sibling : ∀ other ∈ files, here ++ [name] ≠ here ++ [other.1] := by
      intro other mem same
      have names : name = other.1 := by simpa using same
      exact fresh (List.mem_map.mpr ⟨other,mem,names.symm⟩)
    refine ⟨List.forall_mem_cons.mpr ⟨fit,rest.fit⟩,
      List.forall_mem_cons.mpr ⟨?_,rest.holds⟩,fun q other => ?_,fun q there => rest.reaches q ?_⟩
    · rw [rest.others _ sibling,findNew]
    · obtain ⟨notHere,notThere⟩ := List.forall_mem_cons.mp other
      rw [rest.others q notThere,findSet,if_neg notHere]
    · rw [findSet,if_neg,there]
      rintro rfl
      exact free there

theorem filesCut {directory : String} {here : Path} {files : List (String × String)} {t u : Tree}
    {fault : FileFault} (cut : writeFiles directory here files t = (.error fault,u)) :
    ∃ done name text rest, files = done ++ (name,text)::rest ∧
      writeFiles directory here done t = (.ok (),u) ∧
      u.writeFile directory here name text = .error fault := by
  induction files generalizing t with
  | nil => cases cut
  | cons file files ih =>
    obtain ⟨name,text⟩ := file
    unfold writeFiles at cut
    split at cut
    · rename_i refused
      cases cut
      exact ⟨[],name,text,files,rfl,rfl,refused⟩
    · rename_i v write
      obtain ⟨done,last,content,rest,same,written,refused⟩ := ih cut
      refine ⟨(name,text)::done,last,content,rest,by rw [same]; rfl,?_,refused⟩
      rw [writeFiles,write]
      exact written

theorem filesAgain {directory : String} {here : Path} {files : List (String × String)} {t : Tree}
    (house : t.find? here = some .directory) (fit : ∀ file ∈ files, Fit directory file.1)
    (there : ∀ file ∈ files, t.find? (here ++ [file.1]) = some (.file file.2)) :
    writeFiles directory here files t = (.ok (),t) := by
  induction files with
  | nil => rfl
  | cons file files ih =>
    obtain ⟨fitFirst,fitRest⟩ := List.forall_mem_cons.mp fit
    obtain ⟨first,rest⟩ := List.forall_mem_cons.mp there
    rw [writeFiles,writtenAgain fitFirst house first]
    exact ih fitRest rest

end PaneWatch.Tree
