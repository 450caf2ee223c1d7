import PaneWatch.Json.Lexeme
/-! Reading a JSON value of any shape. Every call of a reader takes one from the depth it is
given; twice the length of the text is more than any text can use. -/
namespace PaneWatch.Json

def colon (cs : List Char) : Reading (List Char) :=
  match afterGap cs with
  | [] => .error .cutShort
  | ':'::cs => .ok cs
  | _ => .error .grammar

def key (r : Rigour) (cs : List Char) : Reading (String × List Char) :=
  match afterGap cs with
  | [] => .error .cutShort
  | '"'::cs => string r cs
  | _ => .error .grammar

def scalar (r : Rigour) (c : Char) (cs : List Char) : Reading (Value × List Char) :=
  if startsNumber c then number r (c::cs)
  else if c = 'n' then (word ['u','l','l'] cs).map fun cs => (.null,cs)
  else if c = 't' then (word ['r','u','e'] cs).map fun cs => (.bool true,cs)
  else if c = 'f' then (word ['a','l','s','e'] cs).map fun cs => (.bool false,cs)
  else .error .grammar

mutual

def value (r : Rigour) : Nat → List Char → Reading (Value × List Char)
  | 0,_ => .error .cutShort
  | depth+1,cs =>
    match afterGap cs with
    | [] => .error .cutShort
    | '"'::cs => (string r cs).map fun (s,cs) => (.string s,cs)
    | '['::cs =>
      match afterGap cs with
      | ']'::cs => .ok (.array [],cs)
      | cs => do
        let (v,cs) ← value r depth cs
        let (vs,cs) ← moreItems r depth cs
        .ok (.array (v::vs),cs)
    | '\x7b'::cs =>
      match afterGap cs with
      | '\x7d'::cs => .ok (.object [],cs)
      | cs => do
        let (m,cs) ← member r depth cs
        let (ms,cs) ← moreMembers r depth cs
        .ok (.object (m::ms),cs)
    | c::cs => scalar r c cs

def member (r : Rigour) : Nat → List Char → Reading ((String × Value) × List Char)
  | 0,_ => .error .cutShort
  | depth+1,cs => do
    let (k,cs) ← key r cs
    let cs ← colon cs
    let (v,cs) ← value r depth cs
    .ok ((k,v),cs)

def moreItems (r : Rigour) : Nat → List Char → Reading (List Value × List Char)
  | 0,_ => .error .cutShort
  | depth+1,cs =>
    match afterGap cs with
    | [] => .error .cutShort
    | ']'::cs => .ok ([],cs)
    | ','::cs => do
      let (v,cs) ← value r depth cs
      let (vs,cs) ← moreItems r depth cs
      .ok (v::vs,cs)
    | _ => .error .grammar

def moreMembers (r : Rigour) : Nat → List Char → Reading (List (String × Value) × List Char)
  | 0,_ => .error .cutShort
  | depth+1,cs =>
    match afterGap cs with
    | [] => .error .cutShort
    | '\x7d'::cs => .ok ([],cs)
    | ','::cs => do
      let (m,cs) ← member r depth cs
      let (ms,cs) ← moreMembers r depth cs
      .ok (m::ms,cs)
    | _ => .error .grammar

end

def depthFor (cs : List Char) : Nat := 2*cs.length + 2

def anyValue (r : Rigour) (cs : List Char) : Reading (Value × List Char) :=
  value r (depthFor cs) cs

def whole {α : Type} (read : Reading (α × List Char)) : Reading α := do
  let (a,cs) ← read
  if (afterGap cs).isEmpty then .ok a else .error .grammar

namespace Value

def ofText (cs : List Char) : Except Fault Value := whole (anyValue .strict cs)

end Value
end PaneWatch.Json
