import PaneWatch.Json.Value
/-! The lexemes of JSON text, read from the left. Reading stops at the first fault: the text
breaks the grammar, or it is cut short, or it holds something of another shape than was asked
for. A value nobody asked for is skimmed: its escapes need not name characters, its numbers
may be of any size, and a number that the text ends in breaks the grammar. -/
namespace PaneWatch.Json
open Text

inductive Fault where
  | shape
  | grammar
  | cutShort
  deriving DecidableEq, Repr

abbrev Reading : Type → Type := Except Fault

inductive Rigour where
  | strict
  | skimming
  deriving DecidableEq, Repr

def isGap (c : Char) : Bool := c == ' ' || c == '\n' || c == '\t' || c == '\r'

def afterGap (cs : List Char) : List Char := cs.dropWhile isGap

def word : List Char → List Char → Reading (List Char)
  | [],cs => .ok cs
  | _::_,[] => .error .cutShort
  | w::ws,c::cs => if c = w then word ws cs else .error .grammar

inductive Spot where
  | plain
  | escaped
  /-- Within a `\u` escape; `high` is the first half of a surrogate pair. -/
  | hex (high : Option Nat) (left code : Nat)
  | pairBackslash (high : Nat)
  | pairMark (high : Nat)
  deriving DecidableEq, Repr

inductive Move where
  | closed
  | next (spot : Spot) (shown : List Char)
  | wrong (fault : Fault)
  deriving DecidableEq, Repr

def hexValue? (c : Char) : Option Nat :=
  if c.isDigit then some (digitValue c)
  else if 'a' ≤ c ∧ c ≤ 'f' then some (c.toNat - 'a'.toNat + 10)
  else if 'A' ≤ c ∧ c ≤ 'F' then some (c.toNat - 'A'.toNat + 10)
  else none

/-- Fewer than four bytes are left of the text, so an escape of four digits is cut short. -/
def shortOfFour (rest : List Char) : Bool :=
  (rest.take 4).foldl (fun n c => n + c.utf8Size) 0 < 4

def isHighHalf (code : Nat) : Bool := 0xD800 ≤ code && code ≤ 0xDBFF
def isLowHalf (code : Nat) : Bool := 0xDC00 ≤ code && code ≤ 0xDFFF

def joinHalves (high low : Nat) : Char :=
  Char.ofNat (0x10000 + (high - 0xD800) * 0x400 + (low - 0xDC00))

def codeRead (r : Rigour) (high : Option Nat) (code : Nat) : Move :=
  match r,high with
  | .skimming,_ => .next .plain []
  | .strict,none =>
    if isLowHalf code then .wrong .grammar
    else if isHighHalf code then .next (.pairBackslash code) []
    else .next .plain [Char.ofNat code]
  | .strict,some high =>
    if isLowHalf code then .next .plain [joinHalves high code] else .wrong .grammar

def escapeRead (c : Char) (rest : List Char) : Move :=
  if c = '"' ∨ c = '\\' ∨ c = '/' then .next .plain [c]
  else if c = 'b' then .next .plain ['\x08']
  else if c = 'f' then .next .plain ['\x0c']
  else if c = 'n' then .next .plain ['\n']
  else if c = 'r' then .next .plain ['\r']
  else if c = 't' then .next .plain ['\t']
  else if c = 'u' then
    if shortOfFour rest then .wrong .cutShort else .next (.hex none 4 0) []
  else .wrong .grammar

def move (r : Rigour) (c : Char) (rest : List Char) : Spot → Move
  | .plain =>
    if c = '"' then .closed
    else if c = '\\' then .next .escaped []
    else if c.toNat < 0x20 then .wrong .grammar
    else .next .plain [c]
  | .escaped => escapeRead c rest
  | .hex high left code =>
    match hexValue? c with
    | none => .wrong .grammar
    | some d =>
      if 1 < left then .next (.hex high (left - 1) (16*code + d)) []
      else codeRead r high (16*code + d)
  | .pairBackslash high => if c = '\\' then .next (.pairMark high) [] else .wrong .grammar
  | .pairMark high =>
    if c = 'u' then
      if shortOfFour rest then .wrong .cutShort else .next (.hex (some high) 4 0) []
    else .wrong .grammar

/-- Reads a string from a spot inside it; `shown` holds its characters so far, the last first. -/
def stringFrom (r : Rigour) : Spot → List Char → List Char → Reading (String × List Char)
  | _,_,[] => .error .cutShort
  | spot,shown,c::rest =>
    match move r c rest spot with
    | .closed => .ok (String.ofList shown.reverse,rest)
    | .next spot more => stringFrom r spot (more.reverse ++ shown) rest
    | .wrong fault => .error fault

def string (r : Rigour) (cs : List Char) : Reading (String × List Char) :=
  stringFrom r .plain [] cs

def Rigour.numberCut : Rigour → Fault
  | .strict => .cutShort
  | .skimming => .grammar

def someDigits (r : Rigour) (cs : List Char) : Reading (List Char × List Char) :=
  match digits? cs with
  | some found => .ok found
  | none => if cs.isEmpty then .error r.numberCut else .error .grammar

def wholePart (r : Rigour) (cs : List Char) : Reading (List Char × List Char) := do
  let (ds,rest) ← someDigits r cs
  match ds with
  | '0'::_::_ => .error .grammar
  | _ => .ok (ds,rest)

def fractionPart (r : Rigour) : List Char → Reading (Option (List Char) × List Char)
  | '.'::cs => do
    let (ds,rest) ← someDigits r cs
    .ok (some ds,rest)
  | cs => .ok (none,cs)

structure Exponent where
  mark : Char
  sign : Option Char
  digits : List Char
  deriving DecidableEq, Repr

namespace Exponent

def value (e : Exponent) : Int :=
  if e.sign = some '-' then -(decimalValue e.digits : Int) else decimalValue e.digits

def text (e : Exponent) : List Char := e.mark::(e.sign.toList ++ e.digits)

end Exponent

def signPart : List Char → Option Char × List Char
  | c::cs => if c = '+' ∨ c = '-' then (some c,cs) else (none,c::cs)
  | [] => (none,[])

def exponentPart (r : Rigour) : List Char → Reading (Option Exponent × List Char)
  | c::cs =>
    if c = 'e' ∨ c = 'E' then do
      let (sign,cs) := signPart cs
      let (ds,rest) ← someDigits r cs
      .ok (some ⟨c,sign,ds⟩,rest)
    else .ok (none,c::cs)
  | [] => .ok (none,[])

def doubleLimit : Nat := Nat.pow 2 1024 - Nat.pow 2 970

/-- The magnitude `ds * 10^scale` is out of the range of a double. The places before the point
settle it, except for numbers of just the size of the limit. -/
def pastDouble (ds : List Char) (scale : Int) : Bool :=
  let ds := ds.dropWhile (· == '0')
  let places : Int := ds.length + scale
  if ds.isEmpty || places < 309 then false
  else if 309 < places then true
  else if 0 ≤ scale then doubleLimit ≤ decimalValue ds * Nat.pow 10 scale.toNat
  else doubleLimit * Nat.pow 10 (-scale).toNat ≤ decimalValue ds

def numberValue (negative : Bool) (whole : List Char) (fraction : Option (List Char))
    (exponent : Option Exponent) : Value :=
  match fraction,exponent with
  | none,none =>
    if negative then
      if decimalValue whole = 0 then .decimal ('-'::whole)
      else .integer (-(decimalValue whole : Int))
    else .integer (decimalValue whole)
  | _,_ =>
    .decimal ((if negative then ['-'] else []) ++ whole ++ (fraction.elim [] fun ds => '.'::ds) ++
      exponent.elim [] Exponent.text)

def minusPart : List Char → Bool × List Char
  | '-'::cs => (true,cs)
  | cs => (false,cs)

def number (r : Rigour) (cs : List Char) : Reading (Value × List Char) := do
  let (negative,cs) := minusPart cs
  let (whole,cs) ← wholePart r cs
  let (fraction,cs) ← fractionPart r cs
  let (exponent,cs) ← exponentPart r cs
  let places := fraction.getD []
  let scale : Int := (exponent.elim 0 Exponent.value) - places.length
  if r = .strict ∧ pastDouble (whole ++ places) scale then .error .grammar
  else .ok (numberValue negative whole fraction exponent,cs)

def startsNumber (c : Char) : Bool := c == '-' || c.isDigit

end PaneWatch.Json
