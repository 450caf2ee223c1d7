import PaneWatch.Text
/-! JSON values and the text they are written as. A quote, a backslash and the control
characters below U+0020 are escaped, nothing else is. A layout says what stands in the gaps
between the tokens; an empty array or object has no gap inside. -/
namespace PaneWatch.Json
open Text

/-- A number with a fraction or an exponent, and minus zero, is kept as it was written. -/
inductive Value where
  | null
  | bool (b : Bool)
  | integer (i : Int)
  | decimal (literal : List Char)
  | string (s : String)
  | array (items : List Value)
  | object (members : List (String × Value))
  deriving Inhabited

structure Layout where
  gap : Nat → List Char
  afterColon : List Char

namespace Layout

def compact : Layout := ⟨fun _ => [],[]⟩

def indented : Layout := ⟨fun depth => '\n'::List.replicate (2*depth) ' ',[' ']⟩

end Layout

def hexDigit (d : Nat) : Char := if d < 10 then digit d else Char.ofNat ('a'.toNat + (d - 10))

def escape (c : Char) : List Char :=
  if c = '"' then ['\\','"']
  else if c = '\\' then ['\\','\\']
  else if 0x20 ≤ c.toNat then [c]
  else if c = '\x08' then ['\\','b']
  else if c = '\t' then ['\\','t']
  else if c = '\n' then ['\\','n']
  else if c = '\x0c' then ['\\','f']
  else if c = '\r' then ['\\','r']
  else ['\\','u','0','0',hexDigit (c.toNat / 16),hexDigit (c.toNat % 16)]

def quoted (s : String) : List Char := '"'::(s.toList.flatMap escape ++ ['"'])

def integerText (i : Int) : List Char :=
  if i < 0 then '-'::decimal i.natAbs else decimal i.natAbs

mutual

def Value.render (layout : Layout) (depth : Nat) : Value → List Char
  | .null => ['n','u','l','l']
  | .bool true => ['t','r','u','e']
  | .bool false => ['f','a','l','s','e']
  | .integer i => integerText i
  | .decimal literal => literal
  | .string s => quoted s
  | .array [] => ['[',']']
  | .array (v::vs) =>
    '['::(layout.gap (depth + 1) ++ v.render layout (depth + 1) ++
      renderItems layout (depth + 1) vs ++ layout.gap depth ++ [']'])
  | .object [] => ['\x7b','\x7d']
  | .object ((k,v)::ms) =>
    '\x7b'::(layout.gap (depth + 1) ++ quoted k ++ ':'::layout.afterColon ++
      v.render layout (depth + 1) ++ renderMembers layout (depth + 1) ms ++ layout.gap depth ++
      ['\x7d'])

def renderItems (layout : Layout) (depth : Nat) : List Value → List Char
  | [] => []
  | v::vs => ','::(layout.gap depth ++ v.render layout depth ++ renderItems layout depth vs)

def renderMembers (layout : Layout) (depth : Nat) : List (String × Value) → List Char
  | [] => []
  | (k,v)::ms =>
    ','::(layout.gap depth ++ quoted k ++ ':'::layout.afterColon ++ v.render layout depth ++
      renderMembers layout depth ms)

end

namespace Value

def compact (v : Value) : List Char := v.render Layout.compact 0

def indented (v : Value) : List Char := v.render Layout.indented 0

def ofOption {α : Type} (f : α → Value) : Option α → Value
  | none => null
  | some a => f a

end Value
end PaneWatch.Json
