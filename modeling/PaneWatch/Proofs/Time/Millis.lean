import PaneWatch.Time.Clock

/-! Arithmetic of the two clocks while the count does not wrap: both then move by the whole
milliseconds of a span, and a deadline is met by counting milliseconds up to its ceiling. -/
namespace PaneWatch

namespace Span

def Whole (d : Span) : Prop := ofMillis d.millis = d
instance (d : Span) : Decidable (Whole d) := by unfold Whole; infer_instance

theorem wholeNanos {d : Span} (whole : d.Whole) : d.nanos = d.millis * 1000000 :=
  (congrArg nanos whole).symm

theorem ofMillisAdd {ms : Nat} {d : Span} (whole : d.Whole) :
    ofMillis ms + d = ofMillis (ms + d.millis) := by
  have nanos := wholeNanos whole
  ext
  simp only [nanos_add,nanos_ofMillis]
  omega

theorem ltOfLe {a b c : Span} (le : a ≤ b) (lt : b < c) : a < c := Nat.lt_of_le_of_lt le lt

theorem sinceMono {a b : Span} (le : a ≤ b) (start : Span) : a - start ≤ b - start :=
  Nat.sub_le_sub_right le start.nanos

theorem sinceZero (d : Span) : d - zero = d := by
  ext
  rw [nanos_sub]
  exact Nat.sub_zero d.nanos

theorem ofMillisSub (a b : Nat) : ofMillis a - ofMillis b = ofMillis (a - b) := by
  ext
  simp only [nanos_sub,nanos_ofMillis]
  omega

theorem ofMillisLt {ms : Nat} {d : Span} : ofMillis ms < d ↔ ms < d.millisUp := by
  simp only [lt_iff,nanos_ofMillis,millisUp]
  omega

theorem ofMillisBelow {a b : Nat} : ofMillis a < ofMillis b ↔ a < b := by
  simp only [lt_iff,nanos_ofMillis]
  omega

theorem nanosShorter (a b : Span) : (shorter a b).nanos = min a.nanos b.nanos := by
  unfold shorter
  by_cases le : a ≤ b
  · rw [if_pos le,Nat.min_eq_left le]
  · rw [if_neg le,Nat.min_eq_right (Nat.le_of_not_le le)]

def counted (d : Span) : Nat := d.millis % UInt64.size

end Span

theorem Millis.advanced {count : UInt64} {d : Span} (fits : count.toNat + d.millis < UInt64.size) :
    (Millis.advance count d).toNat = count.toNat + d.millis := by
  have small : d.millis < UInt64.size := by omega
  rw [Millis.advance,UInt64.toNat_add,UInt64.toNat_ofNat_of_lt' small]
  exact Nat.mod_eq_of_lt fits

/- What is added is cut to 64 bits first; their sum wraps exactly if the clock seems to go back. -/
theorem Millis.wraps {count : UInt64} {d : Span} :
    now (advance count d) < now count ↔ UInt64.size ≤ count.toNat + d.millis % UInt64.size := by
  have small : count.toNat < UInt64.size := count.toNat_lt
  have cut : d.millis % UInt64.size < UInt64.size := Nat.mod_lt _ (by decide)
  rw [now,now,Span.ofMillisBelow,advance,UInt64.toNat_add,UInt64.toNat_ofNat']
  change (count.toNat + d.millis % UInt64.size) % UInt64.size < _ ↔ _
  generalize d.millis % UInt64.size = passed at cut ⊢
  by_cases fits : count.toNat + passed < UInt64.size
  · rw [Nat.mod_eq_of_lt fits]
    omega
  · rw [Nat.mod_eq_sub_mod (Nat.not_lt.mp fits),Nat.mod_eq_of_lt (by omega)]
    omega

theorem Millis.nowAdvanced (count : UInt64) (d : Span) :
    now (advance count d) ≤ now count + Span.ofMillis d.counted := by
  have most : (advance count d).toNat ≤ count.toNat + d.counted := by
    rw [advance,UInt64.toNat_add,UInt64.toNat_ofNat']
    exact Nat.mod_le _ _
  simp only [Span.le_iff,now,Span.nanos_add,Span.nanos_ofMillis]
  omega

theorem Millis.onward {count : UInt64} {d : Span}
    (steady : ¬ now (advance count d) < now count) :
    (advance count d).toNat = count.toNat + d.millis % UInt64.size := by
  rw [wraps,Nat.not_le] at steady
  rw [advance,UInt64.toNat_add,UInt64.toNat_ofNat']
  exact Nat.mod_eq_of_lt steady

namespace SystemClock

/-- What is known of the timer of a system clock: from a whole millisecond a sleep of whole
milliseconds ends when they have passed, and no sleep ends before it started. -/
structure Wakes (wake : Span → Span → Span) : Prop where
  whole {ms : Nat} {d : Span} : d.Whole → wake (Span.ofMillis ms) d = Span.ofMillis (ms + d.millis)
  notBefore (t d : Span) : t ≤ wake t d

theorem timerWakes : Wakes wakeTime where
  whole := by
    intro ms d whole
    rw [wakeTime,Span.ofMillisAdd whole]
    ext
    simp only [Span.nanos_add,Span.nanos_ofMillis,Span.millisUp,Span.millis]
    omega
  notBefore := fun t _ => Nat.le_add_right t.nanos _

theorem nowAt (time origin : Span) : now ⟨time,origin⟩ = time - origin := rfl

theorem sleepAt (c : SystemClock) (d : Span) : c.sleep d = ⟨wakeTime c.time d,c.origin⟩ := rfl

theorem notBack (c : SystemClock) (d : Span) : c.now ≤ (c.sleep d).now := by
  rw [sleepAt,nowAt]
  exact Span.sinceMono (timerWakes.notBefore c.time d) c.origin

end SystemClock
end PaneWatch
