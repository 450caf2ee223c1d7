import PaneWatch.Text
/-! Lengths of time, counted in nanoseconds from zero, and the two clocks a wait can be measured
on. A fake clock is a 64-bit count of milliseconds that moves only when told to, and wraps; a
sleep on it returns at once. A system clock reads virtual time since the moment it was made. -/
namespace PaneWatch

@[ext] structure Span where
  nanos : Nat
  deriving DecidableEq, Repr

namespace Span

def zero : Span := ⟨0⟩

def ofMillis (ms : Nat) : Span := ⟨ms * 1000000⟩

def ofSeconds (s : Nat) : Span := ⟨s * 1000000000⟩

def ofParts (seconds nanos : Nat) : Span := ⟨seconds * 1000000000 + nanos⟩

def millis (d : Span) : Nat := d.nanos / 1000000

def millisUp (d : Span) : Nat := (d.nanos + 999999) / 1000000

def seconds (d : Span) : Nat := d.nanos / 1000000000

instance : LE Span := ⟨fun a b => a.nanos ≤ b.nanos⟩
instance : LT Span := ⟨fun a b => a.nanos < b.nanos⟩
instance : Add Span := ⟨fun a b => ⟨a.nanos + b.nanos⟩⟩
instance : Sub Span := ⟨fun a b => ⟨a.nanos - b.nanos⟩⟩
instance : Inhabited Span := ⟨zero⟩

theorem le_iff {a b : Span} : a ≤ b ↔ a.nanos ≤ b.nanos := Iff.rfl
theorem lt_iff {a b : Span} : a < b ↔ a.nanos < b.nanos := Iff.rfl

instance (a b : Span) : Decidable (a ≤ b) := decidable_of_iff _ le_iff.symm
instance (a b : Span) : Decidable (a < b) := decidable_of_iff _ lt_iff.symm

@[simp] theorem nanos_add (a b : Span) : (a + b).nanos = a.nanos + b.nanos := rfl
@[simp] theorem nanos_sub (a b : Span) : (a - b).nanos = a.nanos - b.nanos := rfl
@[simp] theorem nanos_ofMillis (ms : Nat) : (ofMillis ms).nanos = ms * 1000000 := rfl

def shorter (a b : Span) : Span := if a ≤ b then a else b

instance : ToString Span :=
  ⟨fun d => String.ofList
    (Text.decimal d.seconds ++ '.'::Text.padded 9 (d.nanos % 1000000000))⟩

end Span

namespace Millis

/-- The count after whole milliseconds of `d` have passed, modulo 2^64. -/
def advance (count : UInt64) (d : Span) : UInt64 := count + UInt64.ofNat d.millis

def now (count : UInt64) : Span := Span.ofMillis count.toNat

end Millis

structure FakeClock where
  millis : UInt64
  autoAdvance : Bool
  deriving DecidableEq, Repr

namespace FakeClock

def startingAt (ms : UInt64) : FakeClock := ⟨ms,true⟩

def frozen (c : FakeClock) : FakeClock := { c with autoAdvance := false }

def now (c : FakeClock) : Span := Millis.now c.millis

def advance (d : Span) (c : FakeClock) : FakeClock := { c with millis := Millis.advance c.millis d }

def advanceMillis (ms : UInt64) (c : FakeClock) : FakeClock := { c with millis := c.millis + ms }

def sleep (d : Span) (c : FakeClock) : FakeClock := if c.autoAdvance then c.advance d else c

end FakeClock

structure SystemClock where
  time : Span
  origin : Span
  deriving DecidableEq, Repr

namespace SystemClock

/-- When a sleep for `d` that starts at `t` ends. Time moves on by whole milliseconds, from the one
that `t` is in to the first at which the sleep is over. -/
def wakeTime (t d : Span) : Span := t + Span.ofMillis ((t + d).millisUp - t.millis)

def now (c : SystemClock) : Span := c.time - c.origin

def advance (d : Span) (c : SystemClock) : SystemClock := { c with time := c.time + d }

def sleep (d : Span) (c : SystemClock) : SystemClock := { c with time := wakeTime c.time d }

end SystemClock

inductive Clock where
  | fake (clock : FakeClock)
  | system (clock : SystemClock)
  deriving DecidableEq, Repr

namespace Clock

def now : Clock → Span
  | fake c => c.now
  | system c => c.now

def sleep (d : Span) : Clock → Clock
  | fake c => fake (c.sleep d)
  | system c => system (c.sleep d)

def advance (d : Span) : Clock → Clock
  | fake c => fake (c.advance d)
  | system c => system (c.advance d)

end Clock
end PaneWatch
