import PaneWatch.Text
/-! What the text of a pane shows: the iteration marker, the elapsed time, the loop mode, an exit
code and a shell prompt. Each is a fixed pattern, and what counts is its leftmost occurrence. -/
namespace PaneWatch
open Text

inductive Mode where
  | auto
  | interactive
  | observe
  deriving DecidableEq, Repr

namespace Mode

def label : Mode → String
  | auto => "auto"
  | interactive => "interactive"
  | observe => "observe"

def all : List Mode := [auto,interactive,observe]

def ofLabel? (label : String) : Option Mode := all.find? fun m => m.label = label

end Mode

namespace Marker

def iterationHere? (cs : List Char) : Option (List Char) := do
  let cs ← afterWord? ['[','i','t','e','r'] cs
  let cs ← afterBlanks? cs
  let (ds,rest) ← digits? cs
  match rest with
  | ']'::_ => some ds
  | _ => none

/-- The iteration marker `[iter N]`. When the number of the leftmost one does not fit in 32 bits
the text shows no iteration, whatever stands further right. -/
def iteration? (text : String) : Option UInt32 := do
  let ds ← leftmost? iterationHere? text.toList
  let n ← valueBelow? UInt32.size ds
  some (UInt32.ofNat n)

def secondsHere? : List Char → Option (List Char)
  | ':'::a::b::_ => if a.isDigit && b.isDigit then some [':',a,b] else none
  | _ => none

def elapsedHere? : List Char → Option (List Char)
  | a::b::cs =>
    if a.isDigit then
      if b.isDigit then (secondsHere? cs).map fun s => a::b::s
      else (secondsHere? (b::cs)).map fun s => a::s
    else none
  | _ => none

/-- The elapsed time `M:SS` or `MM:SS`; two digits before the colon are preferred to one. -/
def elapsed? (text : String) : Option String :=
  (leftmost? elapsedHere? text.toList).map String.ofList

def isPlayGlyph (c : Char) : Bool := c == '▶' || c == '►'

/-- Simple case folding, for the lower-case letters of the three labels. -/
def foldsTo (w c : Char) : Bool := c.toLower == w || (w == 's' && c == 'ſ')

def foldedWord? : List Char → List Char → Option (List Char)
  | [],_ => some []
  | _::_,[] => none
  | w::ws,c::cs => if foldsTo w c then (foldedWord? ws cs).map fun l => c::l else none

def labelHere? (cs : List Char) : Option (List Char) :=
  Mode.all.findSome? fun m => foldedWord? m.label.toList cs

def modeHere? : List Char → Option (List Char)
  | c::cs => if isPlayGlyph c then labelHere? (trimStart cs) else none
  | [] => none

/-- The label after a play glyph. It is searched for with the long s taken for an `s`, and then
compared in ASCII lower case alone: a label spelt with a long s is found, names no mode, and
hides every label to its right. -/
def mode? (text : String) : Option Mode := do
  let shown ← leftmost? modeHere? text.toList
  Mode.ofLabel? (String.ofList (shown.map Char.toLower))

inductive ExitForm where
  | exitCode
  | exitedWith
  | statusVariable
  | returned
  deriving DecidableEq, Repr

namespace ExitForm

def all : List ExitForm := [exitCode,exitedWith,statusVariable,returned]

def colonOrBlank (c : Char) : Bool := c == ':' || isBlank c

def numberHere? (cs : List Char) : Option (List Char) := (digits? cs).map Prod.fst

def afterOptional (w : List Char) (cs : List Char) : List Char := (afterAnyCase? w cs).getD cs

/-- The `code` of `exited with code 3` counts only with blank space behind it. -/
def afterCodeWord (cs : List Char) : List Char :=
  ((afterAnyCase? ['c','o','d','e'] cs).bind afterBlanks?).getD cs

def here? (form : ExitForm) (cs : List Char) : Option (List Char) :=
  match form with
  | exitCode => do
    let cs ← afterAnyCase? ['e','x','i','t'] cs
    let cs ← afterBlanks? cs
    let cs ← afterAnyCase? ['c','o','d','e'] cs
    match cs with
    | c::cs => if colonOrBlank c then numberHere? (cs.dropWhile colonOrBlank) else none
    | [] => none
  | exitedWith => do
    let cs ← afterAnyCase? ['e','x','i','t','e'] cs
    let cs ← afterBlanks? (afterOptional ['d'] cs)
    let cs ← afterAnyCase? ['w','i','t','h'] cs
    let cs ← afterBlanks? cs
    numberHere? (afterCodeWord cs)
  | statusVariable => do
    let cs ← afterWord? ['$','?'] cs
    match trimStart cs with
    | c::cs => if c == '=' || c == ':' then numberHere? (trimStart cs) else none
    | [] => none
  | returned => do
    let cs ← afterAnyCase? ['r','e','t','u','r','n'] cs
    let cs ← afterBlanks? (afterOptional ['e','d'] cs)
    numberHere? cs

end ExitForm

def exitCodeOf? (text : List Char) (form : ExitForm) : Option Int32 := do
  let ds ← leftmost? form.here? text
  let n ← valueBelow? 2147483648 ds
  some (Int32.ofNat n)

/-- The forms are tried in order, each at its leftmost occurrence only; an occurrence whose
number needs more than 31 bits passes to the next form. -/
def exitCode? (text : String) : Option Int32 := ExitForm.all.findSome? (exitCodeOf? text.toList)

/-- A shell prompt: a dollar with nothing but blank space between it and the end of the text. -/
def promptHere? : List Char → Option Unit
  | '$'::rest => if rest.all isBlank then some () else none
  | _ => none

def isPrompt (text : String) : Bool := (leftmost? promptHere? (trim text.toList)).isSome

end Marker
end PaneWatch
