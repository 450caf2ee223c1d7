import PaneWatch.Text
/-! Moments of calendar time in UTC, to the nanosecond, on dates of the proleptic Gregorian
calendar. They are written `YYYY-MM-DDTHH:MM:SS[.fraction]Z`, a leap second as second 60. What is
read may be written more freely: with blank space between the parts, without leading zeros, and
with an offset from UTC, which is taken off. -/
namespace PaneWatch
open Text

namespace Date

def isLeap (year : Int) : Bool := year % 4 == 0 && (year % 100 != 0 || year % 400 == 0)

def daysIn (year : Int) (month : Nat) : Nat :=
  if month = 2 then if isLeap year then 29 else 28
  else if month = 4 ∨ month = 6 ∨ month = 9 ∨ month = 11 then 30
  else 31

def firstYear : Int := -262143
def lastYear : Int := 262142

def Names (year : Int) (month day : Nat) : Prop :=
  firstYear ≤ year ∧ year ≤ lastYear ∧ 1 ≤ month ∧ month ≤ 12 ∧ 1 ≤ day ∧ day ≤ daysIn year month

instance (year : Int) (month day : Nat) : Decidable (Names year month day) := by
  unfold Names; infer_instance

end Date

structure Date where
  year : Int
  month : Nat
  day : Nat
  named : Date.Names year month day
  deriving DecidableEq

namespace Date

def of? (year : Int) (month day : Nat) : Option Date :=
  if h : Names year month day then some ⟨year,month,day,h⟩ else none

def next? (d : Date) : Option Date :=
  if d.day < daysIn d.year d.month then of? d.year d.month (d.day + 1)
  else if d.month < 12 then of? d.year (d.month + 1) 1
  else of? (d.year + 1) 1 1

def previous? (d : Date) : Option Date :=
  if 1 < d.day then of? d.year d.month (d.day - 1)
  else if 1 < d.month then of? d.year (d.month - 1) (daysIn d.year (d.month - 1))
  else of? (d.year - 1) 12 31

end Date

structure Timestamp where
  date : Date
  hour : Nat
  minute : Nat
  second : Nat
  nanos : Nat
  inDay : hour < 24 ∧ minute < 60 ∧ second ≤ 60 ∧ nanos < 1000000000
  deriving DecidableEq

namespace Timestamp

def of? (date : Date) (hour minute second nanos : Nat) : Option Timestamp :=
  if h : hour < 24 ∧ minute < 60 ∧ second ≤ 60 ∧ nanos < 1000000000 then
    some ⟨date,hour,minute,second,nanos,h⟩
  else none

def epoch : Timestamp :=
  ⟨⟨1970,1,1,by decide⟩,0,0,0,0,by decide⟩

instance : Inhabited Timestamp := ⟨epoch⟩

def yearText (year : Int) : List Char :=
  if 0 ≤ year ∧ year ≤ 9999 then padded 4 year.natAbs
  else (if year < 0 then '-' else '+')::padded 4 year.natAbs

/-- The fewest of no, three, six and nine places that are exact. -/
def fractionText (nanos : Nat) : List Char :=
  if nanos = 0 then []
  else if nanos % 1000000 = 0 then '.'::padded 3 (nanos / 1000000)
  else if nanos % 1000 = 0 then '.'::padded 6 (nanos / 1000)
  else '.'::padded 9 nanos

def text (t : Timestamp) : List Char :=
  yearText t.date.year ++ '-'::padded 2 t.date.month ++ '-'::padded 2 t.date.day ++
    'T'::padded 2 t.hour ++ ':'::padded 2 t.minute ++ ':'::padded 2 t.second ++
    fractionText t.nanos ++ ['Z']

def after? (c : Char) : List Char → Option (List Char)
  | d::rest => if d = c then some rest else none
  | [] => none

def numeral? (most : Nat) (cs : List Char) : Option (Nat × List Char) :=
  let ds := (cs.take most).takeWhile Char.isDigit
  if ds.isEmpty then none else some (decimalValue ds,cs.drop ds.length)

/-- Only a year with a sign may have more than four digits. -/
def signedYear? : List Char → Option (Int × List Char)
  | '-'::cs => (digits? cs).map fun (ds,rest) => (-(decimalValue ds : Int),rest)
  | '+'::cs => (digits? cs).map fun (ds,rest) => ((decimalValue ds : Int),rest)
  | cs => (numeral? 4 cs).map fun (n,rest) => ((n : Int),rest)

def year? (cs : List Char) : Option (Int × List Char) := signedYear? (trimStart cs)

def field? (cs : List Char) : Option (Nat × List Char) := numeral? 2 (trimStart cs)

def separated? (c : Char) (cs : List Char) : Option (List Char) := after? c (trimStart cs)

def dateTimeMark? : List Char → Option (List Char)
  | c::cs => if c = 'T' ∨ c = 't' ∨ c = ' ' then some cs else none
  | [] => none

def nanosOf (ds : List Char) : Nat := decimalValue (ds.take 9) * Nat.pow 10 (9 - ds.length)

def fraction? : List Char → Option (Nat × List Char)
  | '.'::cs => (digits? cs).map fun (ds,rest) => (nanosOf ds,rest)
  | cs => some (0,cs)

def twoDigits? : List Char → Option (Nat × List Char)
  | a::b::rest => if a.isDigit && b.isDigit then some (decimalValue [a,b],rest) else none
  | _ => none

def isMinus (c : Char) : Bool := c == '-' || c == '\u2212'

/-- Hours and minutes behind a sign. Colons and blank space may stand between them, and need not. -/
def signedOffset? : List Char → Option (Int × List Char)
  | [] => none
  | c::cs =>
    if c = '+' ∨ isMinus c then do
      let (h,cs) ← twoDigits? cs
      let (m,cs) ← twoDigits? (cs.dropWhile fun c => c == ':' || isBlank c)
      if h < 24 ∧ m < 60 then
        let ahead : Int := h * 60 + m
        some (if c = '+' then ahead else -ahead,cs)
      else none
    else none

def offset? (cs : List Char) : Option (Int × List Char) :=
  match afterAnyCase? ['u','t','c'] cs with
  | some rest => some (0,rest)
  | none =>
    match afterAnyCase? ['z'] cs with
    | some rest => some (0,rest)
    | none => signedOffset? cs

/-- The moment in UTC of a local one that is `ahead` minutes ahead, less than a day. -/
def toUtc? (ahead : Int) (t : Timestamp) : Option Timestamp := do
  let m : Int := (t.hour * 60 + t.minute : Nat) - ahead
  let date ← if m < 0 then t.date.previous? else if m < 1440 then some t.date else t.date.next?
  let m := (m % 1440).toNat
  of? date (m / 60) (m % 60) t.second t.nanos

def ofText? (cs : List Char) : Option Timestamp := do
  let (year,cs) ← year? cs
  let cs ← separated? '-' cs
  let (month,cs) ← field? cs
  let cs ← separated? '-' cs
  let (day,cs) ← field? cs
  let cs ← dateTimeMark? cs
  let (hour,cs) ← field? cs
  let cs ← separated? ':' cs
  let (minute,cs) ← field? cs
  let cs ← separated? ':' cs
  let (second,cs) ← field? cs
  let (nanos,cs) ← fraction? cs
  let (ahead,cs) ← offset? (trimStart cs)
  if cs.all isBlank then
    let date ← Date.of? year month day
    let t ← of? date hour minute second nanos
    t.toUtc? ahead
  else none

end Timestamp
end PaneWatch
