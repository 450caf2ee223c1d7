/-! Text as a list of characters: blanks and trimming, decimal numerals, the search for a fixed
pattern, and UTF-8. Blank characters are those of the Unicode property White_Space, twenty-five
in all; trimming and every pattern that asks for blank space use this one test. -/
namespace PaneWatch.Text

def isBlank (c : Char) : Bool :=
  let n := c.toNat
  (0x09 ≤ n && n ≤ 0x0D) || n == 0x20 || n == 0x85 || n == 0xA0 || n == 0x1680 ||
    (0x2000 ≤ n && n ≤ 0x200A) || n == 0x2028 || n == 0x2029 || n == 0x202F || n == 0x205F ||
    n == 0x3000

def trimStart (cs : List Char) : List Char := cs.dropWhile isBlank

def trimEnd (cs : List Char) : List Char := (cs.reverse.dropWhile isBlank).reverse

def trim (cs : List Char) : List Char := trimEnd (trimStart cs)

def afterBlanks? : List Char → Option (List Char)
  | c::cs => if isBlank c then some (trimStart cs) else none
  | [] => none

def digitValue (c : Char) : Nat := c.toNat - '0'.toNat

def digit (d : Nat) : Char := Char.ofNat ('0'.toNat + d)

def decimalValue (ds : List Char) : Nat := ds.foldl (fun n c => 10*n + digitValue c) 0

def decimal (n : Nat) : List Char :=
  if n < 10 then [digit n] else decimal (n / 10) ++ [digit (n % 10)]

def padded (width n : Nat) : List Char :=
  List.replicate (width - (decimal n).length) '0' ++ decimal n

def digits? (cs : List Char) : Option (List Char × List Char) :=
  let ds := cs.takeWhile Char.isDigit
  if ds.isEmpty then none else some (ds,cs.dropWhile Char.isDigit)

def valueBelow? (limit : Nat) (ds : List Char) : Option Nat :=
  let n := decimalValue ds
  if n < limit then some n else none

/-- A recogniser says what it finds at the front of a text. It is run at each place from the
left, and the first find is kept. -/
def leftmost? {α : Type} (here : List Char → Option α) : List Char → Option α
  | [] => here []
  | c::cs =>
    match here (c::cs) with
    | some a => some a
    | none => leftmost? here cs

def afterWord? : List Char → List Char → Option (List Char)
  | [],cs => some cs
  | _::_,[] => none
  | w::ws,c::cs => if c = w then afterWord? ws cs else none

def afterAnyCase? : List Char → List Char → Option (List Char)
  | [],cs => some cs
  | _::_,[] => none
  | w::ws,c::cs => if c.toLower = w then afterAnyCase? ws cs else none

abbrev Bytes := List UInt8

def byte (n : Nat) : UInt8 := UInt8.ofNat n

def tailByte (n : Nat) : UInt8 := byte (0x80 + n % 0x40)

def encodeChar (c : Char) : Bytes :=
  let n := c.toNat
  if n < 0x80 then [byte n]
  else if n < 0x800 then [byte (0xC0 + n / 0x40),tailByte n]
  else if n < 0x10000 then [byte (0xE0 + n / 0x1000),tailByte (n / 0x40),tailByte n]
  else [byte (0xF0 + n / 0x40000),tailByte (n / 0x1000),tailByte (n / 0x40),tailByte n]

def encode (cs : List Char) : Bytes := cs.flatMap encodeChar

def replacement : Char := '\ufffd'

/-- A character whose first bytes have been read: how many are still to come, the range the
next one is in, and the bits so far. -/
structure Pending where
  left : Nat
  low : Nat
  high : Nat
  bits : Nat
  deriving DecidableEq, Repr

def pendingAfter? (b : Nat) : Option Pending :=
  if 0xC2 ≤ b ∧ b ≤ 0xDF then some ⟨1,0x80,0xBF,b - 0xC0⟩
  else if b = 0xE0 then some ⟨2,0xA0,0xBF,0⟩
  else if b = 0xED then some ⟨2,0x80,0x9F,0xD⟩
  else if 0xE1 ≤ b ∧ b ≤ 0xEF then some ⟨2,0x80,0xBF,b - 0xE0⟩
  else if b = 0xF0 then some ⟨3,0x90,0xBF,0⟩
  else if b = 0xF4 then some ⟨3,0x80,0x8F,4⟩
  else if 0xF1 ≤ b ∧ b ≤ 0xF3 then some ⟨3,0x80,0xBF,b - 0xF0⟩
  else none

def startByte (b : Nat) : List Char × Option Pending :=
  if b < 0x80 then ([Char.ofNat b],none)
  else
    match pendingAfter? b with
    | some p => ([],some p)
    | none => ([replacement],none)

def readByte (b : Nat) : Option Pending → List Char × Option Pending
  | none => startByte b
  | some p =>
    if p.low ≤ b ∧ b ≤ p.high then
      let bits := 0x40 * p.bits + (b - 0x80)
      if p.left = 1 then ([Char.ofNat bits],none) else ([],some ⟨p.left - 1,0x80,0xBF,bits⟩)
    else
      let (shown,next) := startByte b
      (replacement::shown,next)

def decodeFrom : Option Pending → Bytes → List Char
  | none,[] => []
  | some _,[] => [replacement]
  | p,b::bs => (readByte b.toNat p).1 ++ decodeFrom (readByte b.toNat p).2 bs

/-- Reading never fails: each longest run of bytes that starts like a character and goes no
further is shown as one replacement character, and so is each byte that starts no character. -/
def decode (bs : Bytes) : List Char := decodeFrom none bs

end PaneWatch.Text
