/-! A tree of files below one directory. A path is a list of names from that directory, which
is itself the empty path and is always there. A path as written may hold `.` and `..`, and no
way leads above the first directory. -/
namespace PaneWatch

abbrev Path := List String

inductive Entry where
  | directory
  | file (text : String)
  deriving DecidableEq, Repr

inductive FileFault where
  | notFound
  | isThere
  | notDirectory
  | isDirectory
  | nameTooLong
  | zeroByte
  deriving DecidableEq, Repr

namespace FileFault

def text : FileFault → String
  | notFound => "No such file or directory (os error 2)"
  | isThere => "File exists (os error 17)"
  | notDirectory => "Not a directory (os error 20)"
  | isDirectory => "Is a directory (os error 21)"
  | nameTooLong => "File name too long (os error 36)"
  | zeroByte => "file name contained an unexpected NUL byte"

end FileFault

namespace Tree

def entryAt? (entries : List (Path × Entry)) (path : Path) : Option Entry :=
  if path = [] then some .directory else entries.lookup path

/-- No path has two entries, and each entry is under a name in a directory that is there. -/
structure Formed (entries : List (Path × Entry)) : Prop where
  apart : (entries.map Prod.fst).Nodup
  named : ∀ row ∈ entries, row.1 ≠ []
  housed : ∀ row ∈ entries, entryAt? entries row.1.dropLast = some .directory

instance (entries : List (Path × Entry)) : Decidable (Formed entries) :=
  decidable_of_iff ((entries.map Prod.fst).Nodup ∧ (∀ row ∈ entries, row.1 ≠ []) ∧
      ∀ row ∈ entries, entryAt? entries row.1.dropLast = some .directory)
    ⟨fun ⟨apart,named,housed⟩ => ⟨apart,named,housed⟩,
      fun formed => ⟨formed.apart,formed.named,formed.housed⟩⟩

end Tree

structure Tree where
  entries : List (Path × Entry)
  formed : Tree.Formed entries
  deriving DecidableEq

namespace Tree

def empty : Tree := ⟨[],by decide⟩

instance : Inhabited Tree := ⟨empty⟩

def find? (t : Tree) (path : Path) : Option Entry := entryAt? t.entries path

theorem childBelow (directory : Path) (name : String) : directory ++ [name] ≠ [] := by simp

theorem childApart (directory : Path) (name : String) : directory ≠ directory ++ [name] := by simp

theorem above {t : Tree} {path : Path} (there : t.find? path = some .directory) :
    t.find? path.dropLast = some .directory := by
  unfold find? entryAt? at there
  split at there
  · rename_i root
    rw [root]
    rfl
  · obtain ⟨front,back,same,_⟩ := List.lookup_eq_some_iff.mp there
    have mem : (path,.directory) ∈ t.entries := by rw [same]; simp
    exact t.formed.housed _ mem

def replaced (path : Path) (e : Entry) : List (Path × Entry) → List (Path × Entry)
  | [] => [(path,e)]
  | (p,old)::rest => if p = path then (path,e)::rest else (p,old)::replaced path e rest

theorem lookupReplaced (path : Path) (e : Entry) (entries : List (Path × Entry)) (q : Path) :
    (replaced path e entries).lookup q = if q = path then some e else entries.lookup q := by
  induction entries with
  | nil => by_cases same : q = path <;> simp [replaced,List.lookup_cons,same,beq_false_of_ne]
  | cons entry entries ih =>
    obtain ⟨p,old⟩ := entry
    by_cases here : p = path
    · subst p
      by_cases same : q = path <;> simp [replaced,List.lookup_cons,same,beq_false_of_ne]
    · by_cases there : q = p
      · subst q
        simp [replaced,here]
      · simp [replaced,List.lookup_cons,here,beq_false_of_ne there,ih]

theorem entryReplaced {path : Path} (below : path ≠ []) (e : Entry)
    (entries : List (Path × Entry)) (q : Path) :
    entryAt? (replaced path e entries) q = if q = path then some e else entryAt? entries q := by
  unfold entryAt?
  by_cases root : q = []
  · subst q
    simp [below.symm]
  · simp only [root,↓reduceIte,lookupReplaced]

theorem pathsReplaced (path : Path) (e : Entry) (entries : List (Path × Entry)) :
    (replaced path e entries).map Prod.fst =
      if path ∈ entries.map Prod.fst then entries.map Prod.fst
      else entries.map Prod.fst ++ [path] := by
  induction entries with
  | nil => rfl
  | cons entry entries ih =>
    obtain ⟨p,old⟩ := entry
    by_cases here : p = path
    · simp [replaced,here]
    · simp only [replaced,if_neg here,List.map_cons,ih,List.mem_cons,Ne.symm here,false_or]
      split <;> rfl

theorem formedReplaced {entries : List (Path × Entry)} (formed : Formed entries) {directory : Path}
    {name : String} {e : Entry} (house : entryAt? entries directory = some .directory)
    (keeps : entryAt? entries (directory ++ [name]) = some .directory → e = .directory) :
    Formed (replaced (directory ++ [name]) e entries) := by
  have paths := pathsReplaced (directory ++ [name]) e entries
  have below := childBelow directory name
  have found := entryReplaced below e entries
  have oldOrNew : ∀ row ∈ replaced (directory ++ [name]) e entries,
      row.1 = directory ++ [name] ∨ row.1 ∈ entries.map Prod.fst := by
    intro row mem
    have inside := List.mem_map_of_mem (f := Prod.fst) mem
    rw [paths] at inside
    split at inside
    · exact .inr inside
    · exact (List.mem_append.mp inside).symm.imp_left List.mem_singleton.mp
  refine ⟨?_,fun row mem => ?_,fun row mem => ?_⟩
  · rw [paths]
    split
    · exact formed.apart
    · rename_i fresh
      refine List.nodup_append.mpr ⟨formed.apart,by simp,?_⟩
      intro p mem _ last same
      rw [List.mem_singleton.mp last] at same
      exact fresh (same ▸ mem)
  · cases oldOrNew row mem with
    | inl new => rw [new]; exact below
    | inr old =>
      obtain ⟨before,member,same⟩ := List.mem_map.mp old
      exact same ▸ formed.named before member
  · cases oldOrNew row mem with
    | inl new => rw [new,List.dropLast_concat,found,if_neg (childApart directory name),house]
    | inr old =>
      obtain ⟨before,member,same⟩ := List.mem_map.mp old
      have housed := formed.housed before member
      rw [same] at housed
      rw [found]
      split
      · rename_i there
        rw [there] at housed
        rw [keeps housed]
      · exact housed

/-- Puts an entry under a name in a directory that is there. A directory stays one. -/
def set (t : Tree) (directory : Path) (name : String) (e : Entry)
    (house : t.find? directory = some .directory)
    (keeps : t.find? (directory ++ [name]) = some .directory → e = .directory) : Tree :=
  ⟨replaced (directory ++ [name]) e t.entries,formedReplaced t.formed house keeps⟩

theorem findSet {t : Tree} {directory : Path} {name : String} {e : Entry} {house keeps} (q : Path) :
    (t.set directory name e house keeps).find? q =
      if q = directory ++ [name] then some e else t.find? q :=
  entryReplaced (childBelow directory name) e t.entries q

theorem findNew {t : Tree} {directory : Path} {name : String} {e : Entry} {house keeps} :
    (t.set directory name e house keeps).find? (directory ++ [name]) = some e := by
  rw [findSet,if_pos rfl]

def nameLimit : Nat := 255

def pathLimit : Nat := 4095

def pathFault? (path : String) : Option FileFault :=
  if path.toList.contains '\x00' then some .zeroByte
  else if pathLimit < path.utf8ByteSize then some .nameTooLong
  else none

def joined (directory name : String) : String :=
  if directory.toList.getLast?.all (· == '/') then directory ++ name
  else directory ++ "/" ++ name

/-- The fault of a file met where a directory is wanted. Names are tried one by one only once
a directory had to be made, and then the file is met as the last name of its path. -/
def fileInTheWay (made : Bool) (rest : List String) : FileFault :=
  if rest.isEmpty || (made && !rest.all (· == ".")) then .isThere else .notDirectory

/-- Walks along the names from the directory `here` and makes what is missing. A directory
written with a `.` behind it is not made. What was made stays made when a later name fails. -/
def walk (t : Tree) (made : Bool) (here : Path) (there : t.find? here = some .directory) :
    List String → Except FileFault Path × Tree
  | [] => (.ok here,t)
  | name::rest =>
    if name = "." then walk t made here there rest
    else if name = ".." then walk t made here.dropLast (above there) rest
    else if nameLimit < name.utf8ByteSize then (.error .nameTooLong,t)
    else
      match found : t.find? (here ++ [name]) with
      | some .directory => walk t made (here ++ [name]) found rest
      | some (.file _) => (.error (fileInTheWay made rest),t)
      | none =>
        if !rest.isEmpty && rest.all (· == ".") then (.error .notFound,t)
        else walk (t.set here name .directory there fun _ => rfl) true (here ++ [name]) findNew rest

def namesOf (path : String) : List String :=
  ((path.toList.splitOn '/').filter fun cs => !cs.isEmpty).map String.ofList

def makeDirectories (t : Tree) (path : String) : Except FileFault Path × Tree :=
  match pathFault? path with
  | some e => (.error e,t)
  | none => walk t false [] rfl (namesOf path)

/-- Writes a file under a name in the directory `here`, to which the path `directory` leads. -/
def writeFile (t : Tree) (directory : String) (here : Path) (name text : String) :
    Except FileFault Tree :=
  match pathFault? (joined directory name) with
  | some e => .error e
  | none =>
    match house : t.find? here with
    | none => .error .notFound
    | some (.file _) => .error .notDirectory
    | some .directory =>
      if nameLimit < name.utf8ByteSize then .error .nameTooLong
      else if taken : t.find? (here ++ [name]) = some .directory then .error .isDirectory
      else .ok (t.set here name (.file text) house fun held => absurd held taken)

def writeFiles (directory : String) (here : Path) :
    List (String × String) → Tree → Except FileFault Unit × Tree
  | [],t => (.ok (),t)
  | (name,text)::rest,t =>
    match t.writeFile directory here name text with
    | .error e => (.error e,t)
    | .ok t => writeFiles directory here rest t

end Tree
end PaneWatch
