import Mathlib.Algebra.Group.Nat.Defs
import Mathlib.Data.List.TakeWhile
import PaneWatch.Text

/-! Decimal numerals read back. The numeral of a number is made of digits, has the number as its
value and no zero in front; padding adds zeros up to a width and nothing beyond it. -/
namespace PaneWatch.Text

theorem digitRange {c : Char} (digit : c.isDigit = true) : 0x30 ≤ c.toNat ∧ c.toNat ≤ 0x39 := by
  simpa [Char.isDigit,UInt32.le_iff_toNat_le] using digit

theorem printedNotBlank {c : Char} (low : 0x20 < c.toNat) (high : c.toNat < 0x85) :
    isBlank c = false := by
  simp [isBlank]
  omega

theorem digitNotBlank {c : Char} (digit : c.isDigit = true) : isBlank c = false := by
  have range := digitRange digit
  exact printedNotBlank (by omega) (by omega)

theorem digitReads {d : Nat} (small : d < 10) :
    digitValue (digit d) = d ∧ (digit d).isDigit = true := by
  revert d
  decide

theorem decimalValueSnoc (ds : List Char) (c : Char) :
    decimalValue (ds ++ [c]) = 10 * decimalValue ds + digitValue c := by
  simp [decimalValue]

theorem decimalValueZeros (k : Nat) (ds : List Char) :
    decimalValue (List.replicate k '0' ++ ds) = decimalValue ds := by
  induction k with
  | zero => rfl
  | succ k ih => simpa [decimalValue,List.replicate_succ,digitValue] using ih

theorem decimalReads (n : Nat) : decimalValue (decimal n) = n := by
  induction n using decimal.induct with
  | case1 n small => simp [decimal,small,decimalValue,digitReads small]
  | case2 n large ih =>
    rw [decimal,if_neg large,decimalValueSnoc,ih,(digitReads (Nat.mod_lt n (by decide))).1]
    omega

theorem decimalDigits (n : Nat) : ∀ c ∈ decimal n, c.isDigit = true := by
  induction n using decimal.induct with
  | case1 n small => simp [decimal,small,digitReads small]
  | case2 n large ih =>
    intro c mem
    rw [decimal,if_neg large,List.mem_append,List.mem_singleton] at mem
    rcases mem with mem | rfl
    · exact ih c mem
    · exact (digitReads (Nat.mod_lt n (by decide))).2

theorem decimalSome (n : Nat) : decimal n ≠ [] := by
  rw [decimal]
  split <;> simp

theorem decimalLength {n width : Nat} (room : 1 ≤ width) :
    (decimal n).length ≤ width ↔ n < 10^width := by
  induction n using decimal.induct generalizing width with
  | case1 n small =>
    have : 10^1 ≤ 10^width := Nat.pow_le_pow_right (by decide) room
    simp only [decimal,small,↓reduceIte,List.length_singleton,room,true_iff]
    omega
  | case2 n large ih =>
    rw [decimal,if_neg large,List.length_append,List.length_singleton]
    obtain ⟨w,rfl⟩ := Nat.exists_eq_add_of_le' room
    rcases w with _ | w
    · have := List.length_pos_iff.mpr (decimalSome (n / 10))
      omega
    · rw [Nat.add_le_add_iff_right,ih (by omega),Nat.div_lt_iff_lt_mul (by decide),← Nat.pow_succ]

theorem decimalLead {n : Nat} (positive : 0 < n) : (decimal n).head? ≠ some '0' := by
  induction n using decimal.induct with
  | case1 n small =>
    rw [decimal,if_pos small]
    revert n
    decide
  | case2 n large ih =>
    rw [decimal,if_neg large,List.head?_append,Option.or_of_isSome]
    · exact ih (by omega)
    · simpa using decimalSome (n / 10)

theorem paddedReads (width n : Nat) : decimalValue (padded width n) = n := by
  rw [padded,decimalValueZeros,decimalReads]

theorem paddedInj {width a b : Nat} (same : padded width a = padded width b) : a = b := by
  rw [← paddedReads width a,same,paddedReads]

theorem zeroedDigits (zeros n : Nat) :
    ∀ c ∈ List.replicate zeros '0' ++ decimal n, c.isDigit = true := by
  intro c mem
  cases List.mem_append.mp mem with
  | inl zero => rw [List.eq_of_mem_replicate zero]; rfl
  | inr digit => exact decimalDigits n c digit

theorem paddedDigits (width n : Nat) : ∀ c ∈ padded width n, c.isDigit = true :=
  zeroedDigits _ n

theorem paddedSome (width n : Nat) : padded width n ≠ [] :=
  List.append_ne_nil_of_right_ne_nil _ (decimalSome n)

theorem paddedLength {width n : Nat} (room : 1 ≤ width) (fits : n < 10^width) :
    (padded width n).length = width := by
  have short := (decimalLength room).mpr fits
  rw [padded,List.length_append,List.length_replicate]
  omega

def NoDigit (rest : List Char) : Prop := ∀ c ∈ rest.head?, c.isDigit = false

theorem takeDigits {rest : List Char} (stop : NoDigit rest) (cs : List Char) :
    (cs ++ rest).takeWhile Char.isDigit = cs.takeWhile Char.isDigit ∧
      (cs ++ rest).dropWhile Char.isDigit = cs.dropWhile Char.isDigit ++ rest := by
  induction cs with
  | nil =>
    cases rest with
    | nil => exact ⟨rfl,rfl⟩
    | cons c rest => simp [stop c rfl]
  | cons c cs ih => cases digit : c.isDigit <;> simp [digit,ih]

theorem digitsMore {cs ds left rest : List Char} (found : digits? cs = some (ds,left))
    (stop : NoDigit rest) : digits? (cs ++ rest) = some (ds,left ++ rest) := by
  obtain ⟨taken,dropped⟩ := takeDigits stop cs
  unfold digits? at found ⊢
  rw [taken,dropped]
  cases none : (cs.takeWhile Char.isDigit).isEmpty <;> simp_all

theorem digitsRead {ds rest : List Char} (all : ∀ c ∈ ds, c.isDigit = true) (nonempty : ds ≠ [])
    (stop : NoDigit rest) : digits? (ds ++ rest) = some (ds,rest) := by
  have found : digits? ds = some (ds,[]) := by
    rw [digits?,List.takeWhile_eq_self_iff.mpr all,List.dropWhile_eq_nil_iff.mpr all]
    simp [nonempty]
  exact digitsMore found stop

theorem paddedTaken (width n : Nat) {rest : List Char} (stop : NoDigit rest) :
    digits? (padded width n ++ rest) = some (padded width n,rest) :=
  digitsRead (paddedDigits width n) (paddedSome width n) stop

end PaneWatch.Text
