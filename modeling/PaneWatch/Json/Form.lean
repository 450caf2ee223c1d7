import PaneWatch.Json.Reader
/-! A form says which JSON values stand for an `α`, in two ways: `ofValue?` looks at a value
already in hand, `read` takes the value off the front of a text and meets the faults of shape
and of grammar in the order in which they stand there. -/
namespace PaneWatch.Json
open Text

structure Form (α : Type) where
  ofValue? : Value → Option α
  read : List Char → Reading (α × List Char)

/-- The fault of a value of another kind than was asked for. It is read only as far as it
takes to tell its kind. -/
def otherKind (cs : List Char) : Fault :=
  match afterGap cs with
  | [] => .cutShort
  | '['::_ => .shape
  | '\x7b'::_ => .shape
  | '"'::cs =>
    match string .strict cs with
    | .ok _ => .shape
    | .error fault => fault
  | c::cs =>
    match scalar .strict c cs with
    | .ok _ => .shape
    | .error fault => fault

namespace Form

variable {α β : Type}

def refine (form : Form α) (f : α → Option β) : Form β where
  ofValue? v := (form.ofValue? v).bind f
  read cs := do
    let (a,cs) ← form.read cs
    match f a with
    | some b => .ok (b,cs)
    | none => .error .shape

def string : Form String where
  ofValue?
    | .string s => some s
    | _ => none
  read cs :=
    match afterGap cs with
    | '"'::cs => Json.string .strict cs
    | _ => .error (otherKind cs)

def integer : Form Int where
  ofValue?
    | .integer i => some i
    | _ => none
  read cs :=
    match afterGap cs with
    | c::rest =>
      if startsNumber c then do
        let (v,cs) ← number .strict (c::rest)
        match v with
        | .integer i => .ok (i,cs)
        | _ => .error .shape
      else .error (otherKind cs)
    | [] => .error .cutShort

def bool : Form Bool where
  ofValue?
    | .bool b => some b
    | _ => none
  read cs :=
    match afterGap cs with
    | 't'::cs => (word ['r','u','e'] cs).map fun cs => (true,cs)
    | 'f'::cs => (word ['a','l','s','e'] cs).map fun cs => (false,cs)
    | _ => .error (otherKind cs)

def null : Form Unit where
  ofValue?
    | .null => some ()
    | _ => none
  read cs :=
    match afterGap cs with
    | 'n'::cs => (word ['u','l','l'] cs).map fun cs => ((),cs)
    | _ => .error (otherKind cs)

def nullable (form : Form α) : Form (Option α) where
  ofValue?
    | .null => some none
    | v => (form.ofValue? v).map some
  read cs :=
    match afterGap cs with
    | 'n'::cs => (word ['u','l','l'] cs).map fun cs => (none,cs)
    | _ => (form.read cs).map fun (a,cs) => (some a,cs)

def label (named : String → Option α) : Form α where
  ofValue?
    | .string s => named s
    | .object [(k,.null)] => named k
    | _ => none
  read cs :=
    match afterGap cs with
    | [] => .error .cutShort
    | '"'::_ => (string.refine named).read cs
    | '\x7b'::cs => do
      let (a,cs) ← (string.refine named).read cs
      let cs ← colon cs
      let (_,cs) ← null.read cs
      match afterGap cs with
      | [] => .error .cutShort
      | '\x7d'::cs => .ok (a,cs)
      | _ => .error .grammar
    | _ => .error .grammar

def afterComma (close : Char) (cs : List Char) : Reading (List Char) :=
  match afterGap cs with
  | [] => .error .cutShort
  | c::cs => if c = close then .error .grammar else .ok (c::cs)

/-- The items of an array after the first. The text shrinks with each, so its length bounds
their number. -/
def readMore (read : List Char → Reading (α × List Char)) :
    Nat → List Char → Reading (List α × List Char)
  | 0,_ => .error .cutShort
  | bound+1,cs =>
    match afterGap cs with
    | [] => .error .cutShort
    | ']'::cs => .ok ([],cs)
    | ','::cs => do
      let cs ← afterComma ']' cs
      let (a,cs) ← read cs
      let (as,cs) ← readMore read bound cs
      .ok (a::as,cs)
    | _ => .error .grammar

def list (form : Form α) : Form (List α) where
  ofValue?
    | .array vs => vs.mapM form.ofValue?
    | _ => none
  read cs :=
    match afterGap cs with
    | '['::cs =>
      match afterGap cs with
      | [] => .error .cutShort
      | ']'::cs => .ok ([],cs)
      | cs => do
        let (a,cs) ← form.read cs
        let (as,cs) ← readMore form.read (cs.length + 1) cs
        .ok (a::as,cs)
    | _ => .error (otherKind cs)

end Form

structure Slot (δ : Type) where
  name : String
  filled : δ → Bool
  form : Form (δ → δ)

namespace Slot

variable {δ α : Type}

def of (name : String) (get : δ → Option α) (set : α → δ → δ) (form : Form α) : Slot δ where
  name := name
  filled d := (get d).isSome
  form := form.refine fun a => some (set a)

end Slot

namespace Form

variable {δ α : Type}

def fillMembers (slots : List (Slot δ)) : List (String × Value) → δ → Option δ
  | [],d => some d
  | (k,v)::ms,d =>
    match slots.find? fun slot => slot.name = k with
    | none => fillMembers slots ms d
    | some slot =>
      if slot.filled d then none
      else (slot.form.ofValue? v).bind fun set => fillMembers slots ms (set d)

def fillItems : List (Slot δ) → List Value → δ → Option δ
  | [],[],d => some d
  | slot::slots,v::vs,d => (slot.form.ofValue? v).bind fun set => fillItems slots vs (set d)
  | _,_,_ => none

def readMember (slots : List (Slot δ)) (k : String) (d : δ) (cs : List Char) :
    Reading (δ × List Char) :=
  match slots.find? fun slot => slot.name = k with
  | none => do
    let cs ← colon cs
    let (_,cs) ← anyValue .skimming cs
    .ok (d,cs)
  | some slot =>
    if slot.filled d then .error .shape
    else do
      let cs ← colon cs
      let (set,cs) ← slot.form.read cs
      .ok (set d,cs)

def readMembers (slots : List (Slot δ)) : Nat → δ → List Char → Reading (δ × List Char)
  | 0,_,_ => .error .cutShort
  | bound+1,d,cs =>
    match afterGap cs with
    | [] => .error .cutShort
    | '\x7d'::cs => .ok (d,cs)
    | ','::cs => do
      let (k,cs) ← key .strict cs
      let (d,cs) ← readMember slots k d cs
      readMembers slots bound d cs
    | _ => .error .grammar

def readItems : List (Slot δ) → δ → List Char → Reading (δ × List Char)
  | [],d,cs => .ok (d,cs)
  | slot::slots,d,cs =>
    match afterGap cs with
    | [] => .error .cutShort
    | ']'::_ => .error .shape
    | ','::cs => do
      let cs ← afterComma ']' cs
      let (set,cs) ← slot.form.read cs
      readItems slots (set d) cs
    | _ => .error .grammar

def readFirstItem : List (Slot δ) → δ → List Char → Reading (δ × List Char)
  | [],d,cs => .ok (d,cs)
  | slot::slots,d,cs =>
    match afterGap cs with
    | [] => .error .cutShort
    | ']'::_ => .error .shape
    | cs => do
      let (set,cs) ← slot.form.read cs
      readItems slots (set d) cs

def closeItems (cs : List Char) : Reading (List Char) :=
  match afterGap cs with
  | [] => .error .cutShort
  | ']'::cs => .ok cs
  | _ => .error .grammar

/-- A record, written as an object or as the array of all its slots. Members that name no
slot are passed over; `finish` refuses a draft that lacks what it needs. -/
def record (slots : List (Slot δ)) (blank : δ) (finish : δ → Option α) : Form α where
  ofValue?
    | .object ms => (fillMembers slots ms blank).bind finish
    | .array vs => (fillItems slots vs blank).bind finish
    | _ => none
  read cs :=
    let finished (read : Reading (δ × List Char)) : Reading (α × List Char) := do
      let (d,cs) ← read
      match finish d with
      | some a => .ok (a,cs)
      | none => .error .shape
    match afterGap cs with
    | '['::cs =>
      finished do
        let (d,cs) ← readFirstItem slots blank cs
        let cs ← closeItems cs
        .ok (d,cs)
    | '\x7b'::cs =>
      finished <|
        match afterGap cs with
        | [] => .error .cutShort
        | '\x7d'::cs => .ok (blank,cs)
        | cs => do
          let (k,cs) ← key .strict cs
          let (d,cs) ← readMember slots k blank cs
          readMembers slots (cs.length + 1) d cs
    | _ => .error (otherKind cs)

def ofText (form : Form α) (cs : List Char) : Reading α := whole (form.read cs)

end Form
end PaneWatch.Json
