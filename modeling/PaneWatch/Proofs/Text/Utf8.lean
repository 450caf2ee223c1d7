import Mathlib.Algebra.Group.Nat.Defs
import Mathlib.Data.Nat.Find
import Mathlib.Tactic.SplitIfs
import PaneWatch.Text

/-! Bytes shown as text. Where a character stands it is shown. Where none does, the longest front of
a character that stands there is shown as one replacement, and so is a byte that no character begins
with. The reader goes byte by byte; what it remembers between two bytes says just which characters
may still come of them. -/
namespace PaneWatch.Text

def utf8 (s : String) : Bytes := s.toUTF8.data.toList

theorem scalarBound (c : Char) : c.toNat < 0x110000 := by
  have valid := c.valid
  unfold UInt32.isValidChar Nat.isValidChar at valid
  unfold Char.toNat
  omega

theorem encodedChar (c : Char) : encodeChar c = String.utf8EncodeChar c := by
  have scalar := scalarBound c
  have same : c.val.toNat = c.toNat := rfl
  unfold encodeChar String.utf8EncodeChar
  simp only [byte,tailByte,same]
  by_cases one : c.toNat < 0x80
  · rw [if_pos one,if_pos (show c.toNat ≤ 127 by omega)]
  rw [if_neg one,if_neg (show ¬ c.toNat ≤ 127 by omega)]
  by_cases two : c.toNat < 0x800
  · rw [if_pos two,if_pos (show c.toNat ≤ 2047 by omega),
      Nat.mod_eq_of_lt (show c.toNat / 64 < 32 by omega)]
    simp only [Nat.add_comm]
  rw [if_neg two,if_neg (show ¬ c.toNat ≤ 2047 by omega)]
  by_cases three : c.toNat < 0x10000
  · rw [if_pos three,if_pos (show c.toNat ≤ 65535 by omega),
      Nat.mod_eq_of_lt (show c.toNat / 4096 < 16 by omega)]
    simp only [Nat.add_comm]
  · rw [if_neg three,if_neg (show ¬ c.toNat ≤ 65535 by omega),
      Nat.mod_eq_of_lt (show c.toNat / 262144 < 8 by omega)]
    simp only [Nat.add_comm]

theorem encodedText (s : String) : encode s.toList = utf8 s := by
  have whole : s.toUTF8 = (s.toList.flatMap String.utf8EncodeChar).toByteArray :=
    String.utf8Encode_toList.symm
  have each : encodeChar = String.utf8EncodeChar := funext encodedChar
  unfold encode utf8
  rw [whole,List.toList_data_toByteArray,each]

def tails : Nat → Nat → Bytes
  | 0,_ => []
  | left+1,n => tailByte (n / 0x40^left)::tails left n

theorem tailsLength (left n : Nat) : (tails left n).length = left := by
  induction left with
  | zero => rfl
  | succ left ih => rw [tails,List.length_cons,ih]

theorem byteValue {n : Nat} (small : n < 0x100) : (byte n).toNat = n :=
  UInt8.toNat_ofNat_of_lt' small

theorem tailValue (n : Nat) : (tailByte n).toNat = 0x80 + n % 0x40 := byteValue (by omega)

section Scalars

variable {c : Char}

theorem encodedOne (small : c.toNat < 0x80) : encodeChar c = [byte c.toNat] := if_pos small

theorem encodedTwo (low : 0x80 ≤ c.toNat) (high : c.toNat < 0x800) :
    encodeChar c = byte (0xC0 + c.toNat / 0x40)::tails 1 c.toNat := by
  simp only [encodeChar,if_neg (Nat.not_lt.mpr low),if_pos high,tails,Nat.pow_zero,Nat.div_one]

theorem encodedThree (low : 0x800 ≤ c.toNat) (high : c.toNat < 0x10000) :
    encodeChar c = byte (0xE0 + c.toNat / 0x1000)::tails 2 c.toNat := by
  have notOne : ¬ c.toNat < 0x80 := by omega
  simp only [encodeChar,if_neg notOne,if_neg (Nat.not_lt.mpr low),if_pos high,tails,Nat.pow_zero,
    Nat.pow_one,Nat.div_one]

theorem encodedFour (low : 0x10000 ≤ c.toNat) :
    encodeChar c = byte (0xF0 + c.toNat / 0x40000)::tails 3 c.toNat := by
  have notOne : ¬ c.toNat < 0x80 := by omega
  have notTwo : ¬ c.toNat < 0x800 := by omega
  simp only [encodeChar,if_neg notOne,if_neg notTwo,if_neg (Nat.not_lt.mpr low),tails,Nat.pow_zero,
    Nat.pow_one,Nat.div_one,Nat.reducePow]

theorem scalarChar {n : Nat} (valid : n < 0xD800 ∨ 0xDFFF < n ∧ n < 0x110000) :
    ∃ c : Char, c.toNat = n :=
  ⟨Char.ofNatAux n valid,rfl⟩

theorem notSurrogate (c : Char) : c.toNat < 0xD800 ∨ 0xDFFF < c.toNat ∧ c.toNat < 0x110000 :=
  c.valid

end Scalars

/- A number with the bits read so far, and bits in range in the byte to come. -/
structure Fits (p : Pending) (n : Nat) : Prop where
  bits : n / 0x40^p.left = p.bits
  low : p.low ≤ 0x80 + n / 0x40^(p.left - 1) % 0x40
  high : 0x80 + n / 0x40^(p.left - 1) % 0x40 ≤ p.high

/- The bytes read are the front of all characters whose numbers fit what is remembered. -/
structure Front (read : Bytes) (p : Pending) : Prop where
  more : 1 ≤ p.left
  range : 0x80 ≤ p.low ∧ p.low ≤ p.high ∧ p.high ≤ 0xBF
  chars : ∀ n, Fits p n → ∃ c : Char, c.toNat = n ∧ encodeChar c = read ++ tails p.left n

theorem tailRange : 0x80 ≤ 0x80 ∧ 0x80 ≤ 0xBF ∧ 0xBF ≤ 0xBF := by decide

section Leads

variable {b : UInt8} {p : Pending}

theorem byteBack {n : Nat} (same : b.toNat = n) : byte n = b := by
  rw [← same]
  exact UInt8.ofNat_toNat

theorem frontTwo (lead : 0xC2 ≤ b.toNat) (last : b.toNat ≤ 0xDF) :
    Front [b] ⟨1,0x80,0xBF,b.toNat - 0xC0⟩ := by
  refine ⟨Nat.le_refl 1,tailRange,?_⟩
  intro n fits
  have bits : n / 0x40 = b.toNat - 0xC0 := fits.bits
  obtain ⟨c,same⟩ := scalarChar (n := n) (by omega)
  refine ⟨c,same,?_⟩
  subst same
  rw [encodedTwo (by omega) (by omega),byteBack (b := b) (by omega)]
  rfl

theorem frontThree {low high bits : Nat} (lead : b.toNat = 0xE0 + bits)
    (range : 0x80 ≤ low ∧ low ≤ high ∧ high ≤ 0xBF)
    (within : ∀ n, n / 0x1000 = bits → low ≤ 0x80 + n / 0x40 % 0x40 →
      0x80 + n / 0x40 % 0x40 ≤ high →
      0x800 ≤ n ∧ n < 0x10000 ∧ (n < 0xD800 ∨ 0xDFFF < n)) :
    Front [b] ⟨2,low,high,bits⟩ := by
  refine ⟨Nat.le_add_left 1 _,range,?_⟩
  intro n fits
  have bits : n / 0x1000 = bits := fits.bits
  obtain ⟨least,most,scalar⟩ := within n bits fits.low fits.high
  obtain ⟨c,same⟩ := scalarChar (n := n) (by omega)
  refine ⟨c,same,?_⟩
  subst same
  rw [encodedThree least most,byteBack (b := b) (by omega)]
  rfl

theorem frontFour {low high bits : Nat} (lead : b.toNat = 0xF0 + bits)
    (range : 0x80 ≤ low ∧ low ≤ high ∧ high ≤ 0xBF)
    (within : ∀ n, n / 0x40000 = bits → low ≤ 0x80 + n / 0x1000 % 0x40 →
      0x80 + n / 0x1000 % 0x40 ≤ high → 0x10000 ≤ n ∧ n < 0x110000) :
    Front [b] ⟨3,low,high,bits⟩ := by
  refine ⟨Nat.le_add_left 1 _,range,?_⟩
  intro n fits
  have bits : n / 0x40000 = bits := fits.bits
  obtain ⟨least,most⟩ := within n bits fits.low fits.high
  obtain ⟨c,same⟩ := scalarChar (n := n) (by omega)
  refine ⟨c,same,?_⟩
  subst same
  rw [encodedFour least,byteBack (b := b) (by omega)]
  rfl

theorem leadFront (lead : pendingAfter? b.toNat = some p) : Front [b] p := by
  unfold pendingAfter? at lead
  split_ifs at lead with two least three top least' top' four <;> cases lead
  · exact frontTwo two.1 two.2
  · exact frontThree (by omega) (by decide) (by intros; omega)
  · exact frontThree (by omega) (by decide) (by intros; omega)
  · exact frontThree (by omega) (by decide) (by intros; omega)
  · exact frontFour (by omega) (by decide) (by intros; omega)
  · exact frontFour (by omega) (by decide) (by intros; omega)
  · exact frontFour (by omega) (by decide) (by intros; omega)

end Leads

theorem leadTwo : ∀ bits, bits < 0x20 → 2 ≤ bits →
    pendingAfter? (byte (0xC0 + bits)).toNat = some ⟨1,0x80,0xBF,bits⟩ := by
  decide

theorem leadThree : ∀ bits, bits < 0x10 → pendingAfter? (byte (0xE0 + bits)).toNat =
    some ⟨2,if bits = 0 then 0xA0 else 0x80,if bits = 0xD then 0x9F else 0xBF,bits⟩ := by
  decide

theorem leadFour : ∀ bits, bits < 5 → pendingAfter? (byte (0xF0 + bits)).toNat =
    some ⟨3,if bits = 0 then 0x90 else 0x80,if bits = 4 then 0x8F else 0xBF,bits⟩ := by
  decide

theorem charLead {c : Char} (large : 0x80 ≤ c.toNat) : ∃ b p,
    pendingAfter? b.toNat = some p ∧ Fits p c.toNat ∧ encodeChar c = b::tails p.left c.toNat := by
  have scalar := notSurrogate c
  by_cases two : c.toNat < 0x800
  · have lead := leadTwo (c.toNat / 0x40) (by omega) (by omega)
    exact ⟨_,_,lead,⟨rfl,Nat.le_add_right _ _,by dsimp only; omega⟩,encodedTwo large two⟩
  by_cases three : c.toNat < 0x10000
  · have lead := leadThree (c.toNat / 0x1000) (by omega)
    refine ⟨_,_,lead,⟨rfl,?_,?_⟩,encodedThree (by omega) three⟩
    · dsimp only [Nat.reducePow,Nat.reduceSub]; split <;> omega
    · dsimp only [Nat.reducePow,Nat.reduceSub]; split <;> omega
  · have lead := leadFour (c.toNat / 0x40000) (by omega)
    refine ⟨_,_,lead,⟨rfl,?_,?_⟩,encodedFour (by omega)⟩
    · dsimp only [Nat.reducePow,Nat.reduceSub]; split <;> omega
    · dsimp only [Nat.reducePow,Nat.reduceSub]; split <;> omega

section Reading

variable {read : Bytes} {p : Pending} {b : UInt8} {n : Nat}

def Pending.next (p : Pending) (b : UInt8) : Pending :=
  ⟨p.left - 1,0x80,0xBF,0x40 * p.bits + (b.toNat - 0x80)⟩

theorem sixBits {left : Nat} (more : 1 ≤ left) (n : Nat) :
    n / 0x40^left = n / 0x40^(left - 1) / 0x40 := by
  obtain ⟨k,rfl⟩ := Nat.exists_eq_add_of_le' more
  rw [Nat.add_sub_cancel,Nat.pow_succ,Nat.div_div_eq_div_mul]

theorem tailsSplit {left : Nat} (more : 1 ≤ left) (n : Nat) :
    tails left n = tailByte (n / 0x40^(left - 1))::tails (left - 1) n := by
  obtain ⟨k,rfl⟩ := Nat.exists_eq_add_of_le' more
  rfl

theorem Fits.byte (fits : Fits p n) : p.low ≤ (tailByte (n / 0x40^(p.left - 1))).toNat ∧
    (tailByte (n / 0x40^(p.left - 1))).toNat ≤ p.high := by
  rw [tailValue]
  exact ⟨fits.low,fits.high⟩

theorem Fits.next (fits : Fits p n) (more : 1 ≤ p.left) :
    Fits (p.next (tailByte (n / 0x40^(p.left - 1)))) n := by
  have bits := fits.bits
  rw [sixBits more] at bits
  unfold Pending.next
  constructor
  · rw [tailValue]
    dsimp only
    omega
  · exact Nat.le_add_right 0x80 _
  · dsimp only
    omega

theorem Fits.before (fits : Fits (p.next b) n) (more : 1 ≤ p.left)
    (low : p.low ≤ b.toNat) (high : b.toNat ≤ p.high) (tail : 0x80 ≤ b.toNat ∧ b.toNat ≤ 0xBF) :
    Fits p n ∧ tailByte (n / 0x40^(p.left - 1)) = b := by
  have bits : n / 0x40^(p.left - 1) = 0x40 * p.bits + (b.toNat - 0x80) := fits.bits
  have value : 0x80 + n / 0x40^(p.left - 1) % 0x40 = b.toNat := by omega
  refine ⟨⟨?_,?_,?_⟩,UInt8.toNat_inj.mp ((tailValue _).trans value)⟩
  · rw [sixBits more]
    omega
  · rwa [value]
  · rwa [value]

theorem readInside (low : p.low ≤ b.toNat) (high : b.toNat ≤ p.high) (more : p.left ≠ 1) :
    readByte b.toNat (some p) = ([],some (p.next b)) := by
  simp only [readByte,low,high,and_self,↓reduceIte,more,Pending.next]

theorem readLast (low : p.low ≤ b.toNat) (high : b.toNat ≤ p.high) (last : p.left = 1) :
    readByte b.toNat (some p) = ([Char.ofNat (p.next b).bits],none) := by
  simp only [readByte,low,high,and_self,↓reduceIte,last,Pending.next]

theorem readOutside (outside : ¬ (p.low ≤ b.toNat ∧ b.toNat ≤ p.high)) :
    readByte b.toNat (some p) =
      (replacement::(readByte b.toNat none).1,(readByte b.toNat none).2) := by
  simp only [readByte,outside,↓reduceIte]

theorem Front.onward (front : Front read p) (more : p.left ≠ 1) (low : p.low ≤ b.toNat)
    (high : b.toNat ≤ p.high) : Front (read ++ [b]) (p.next b) := by
  obtain ⟨left,range,chars⟩ := front
  refine ⟨show 1 ≤ p.left - 1 by omega,tailRange,?_⟩
  intro n fits
  obtain ⟨before,byte⟩ := fits.before left low high ⟨by omega,by omega⟩
  obtain ⟨c,same,encoded⟩ := chars n before
  refine ⟨c,same,?_⟩
  rw [encoded,tailsSplit left,byte,List.append_assoc]
  rfl

def Begins (w : Bytes) : Prop := ∃ c, w <+: encodeChar c

theorem Front.extends (front : Front read p) (low : p.low ≤ b.toNat) (high : b.toNat ≤ p.high) :
    Begins (read ++ [b]) := by
  obtain ⟨left,range,chars⟩ := front
  have fits : Fits (p.next b) ((p.next b).bits * 0x40^(p.left - 1)) := by
    refine ⟨Nat.mul_div_cancel _ (Nat.pow_pos (by decide)),Nat.le_add_right 0x80 _,?_⟩
    dsimp only [Pending.next]
    omega
  obtain ⟨before,byte⟩ := fits.before left low high ⟨by omega,by omega⟩
  obtain ⟨c,_,encoded⟩ := chars _ before
  refine ⟨c,tails (p.left - 1) ((p.next b).bits * 0x40^(p.left - 1)),?_⟩
  rw [encoded,tailsSplit left,byte,List.append_assoc]
  rfl

theorem Front.begins (front : Front read p) : Begins read := by
  have low : (byte p.low).toNat = p.low := by
    have := front.range
    exact byteValue (by omega)
  have high : (byte p.low).toNat ≤ p.high := by
    rw [low]
    exact front.range.2.1
  obtain ⟨c,longer⟩ := front.extends (Nat.le_of_eq low.symm) high
  exact ⟨c,(List.prefix_append read _).trans longer⟩

theorem tailsRead (fits : Fits p n) (more : 1 ≤ p.left) (rest : Bytes) :
    decodeFrom (some p) (tails p.left n ++ rest) = Char.ofNat n::decode rest := by
  obtain ⟨left,same⟩ := Nat.exists_eq_add_of_le' more
  induction left generalizing p with
  | zero =>
    obtain ⟨low,high⟩ := fits.byte
    have bits := (fits.next more).bits
    have last : p.left = 1 := same
    have whole : (p.next (tailByte (n / 0x40^(p.left - 1)))).left = 0 := by
      simp only [Pending.next,last,Nat.sub_self]
    rw [whole,Nat.pow_zero,Nat.div_one] at bits
    rw [tailsSplit more,List.cons_append,decodeFrom,readLast low high last,← bits,last]
    rfl
  | succ left ih =>
    obtain ⟨low,high⟩ := fits.byte
    rw [tailsSplit more,List.cons_append,decodeFrom,readInside low high (by omega)]
    have further : (p.next (tailByte (n / 0x40^(p.left - 1)))).left = left + 1 := by
      simp only [Pending.next]
      omega
    exact ih (fits.next more) (by omega) further

theorem tailsBegun (front : Front read p) (fits : Fits p n) {part : Bytes}
    (proper : part.length < p.left) (inside : part <+: tails p.left n) :
    ∃ q, Front (read ++ part) q ∧
      ∀ rest, decodeFrom (some p) (part ++ rest) = decodeFrom (some q) rest := by
  induction part generalizing read p with
  | nil => exact ⟨p,by rwa [List.append_nil],fun _ => rfl⟩
  | cons b part ih =>
    rw [List.length_cons] at proper
    rw [tailsSplit front.more,List.cons_prefix_cons] at inside
    obtain ⟨rfl,inside⟩ := inside
    obtain ⟨low,high⟩ := fits.byte
    have more : p.left ≠ 1 := by omega
    have shorter : part.length < p.left - 1 := by omega
    obtain ⟨q,reached,reads⟩ :=
      ih (front.onward more low high) (fits.next front.more) shorter inside
    refine ⟨q,?_,?_⟩
    · rwa [List.append_assoc] at reached
    · intro rest
      rw [List.cons_append,decodeFrom,readInside low high more]
      exact reads rest

theorem startLead (lead : pendingAfter? b.toNat = some p) : startByte b.toNat = ([],some p) := by
  have large : ¬ b.toNat < 0x80 := by
    intro small
    unfold pendingAfter? at lead
    split_ifs at lead <;> omega
  simp only [startByte,if_neg large,lead]

theorem startStray (large : ¬ b.toNat < 0x80) (stray : pendingAfter? b.toNat = none) :
    startByte b.toNat = ([replacement],none) := by
  simp only [startByte,if_neg large,stray]

theorem charReads (c : Char) (rest : Bytes) :
    decode (encodeChar c ++ rest) = c::decode rest := by
  by_cases small : c.toNat < 0x80
  · have value : (byte c.toNat).toNat = c.toNat := byteValue (by omega)
    rw [encodedOne small,List.singleton_append,decode,decodeFrom,readByte,value,startByte,
      if_pos small,Char.ofNat_toNat]
    rfl
  · obtain ⟨b,p,lead,fits,encoded⟩ := charLead (Nat.le_of_not_lt small)
    rw [encoded,List.cons_append,decode,decodeFrom,readByte,startLead lead,
      tailsRead fits (leadFront lead).more,Char.ofNat_toNat]
    rfl

theorem encodeReads (cs : List Char) (bs : Bytes) :
    decode (encode cs ++ bs) = cs ++ decode bs := by
  induction cs with
  | nil => rfl
  | cons c cs ih =>
    have first : encode (c::cs) = encodeChar c ++ encode cs := rfl
    rw [first,List.append_assoc,charReads,ih]
    rfl

end Reading

/- What is shown as one replacement: a front of a character, or any one byte. -/
def Subpart (w : Bytes) : Prop := w.length = 1 ∨ Begins w

/- No character stands there, and no longer part of the bytes is a front of one. -/
structure Broken (part rest : Bytes) : Prop where
  noChar : ∀ c, ¬ encodeChar c <+: part ++ rest
  bytes : part ≠ []
  subpart : Subpart part
  longest : ∀ w, w <+: part ++ rest → part.length < w.length → ¬ Subpart w

section Broken

variable {part rest : Bytes} {p : Pending} {b : UInt8}

theorem stuckReads (front : Front part p) (longest : ∀ w, w <+: part ++ rest →
    part.length < w.length → ¬ Subpart w) : decodeFrom (some p) rest = replacement::decode rest := by
  cases rest with
  | nil => rfl
  | cons next rest =>
    have outside : ¬ (p.low ≤ next.toNat ∧ next.toNat ≤ p.high) := by
      intro inside
      refine longest (part ++ [next]) ?_ ?_ (Or.inr (front.extends inside.1 inside.2))
      · exact (List.prefix_append_right_inj part).mpr ⟨rest,rfl⟩
      · rw [List.length_append]
        exact Nat.lt_succ_self _
    rw [decodeFrom,readOutside outside]
    rfl

theorem begunLead (large : ¬ b.toNat < 0x80) (begun : Begins (b::part)) :
    ∃ p n, pendingAfter? b.toNat = some p ∧ Fits p n ∧ part <+: tails p.left n ∧
      ∃ c, encodeChar c = b::tails p.left n := by
  obtain ⟨c,front⟩ := begun
  by_cases small : c.toNat < 0x80
  · rw [encodedOne small,List.cons_prefix_cons] at front
    have value : (byte c.toNat).toNat = c.toNat := byteValue (by omega)
    rw [front.1,value] at large
    exact absurd small large
  · obtain ⟨lead,p,leads,fits,encoded⟩ := charLead (Nat.le_of_not_lt small)
    rw [encoded,List.cons_prefix_cons] at front
    obtain ⟨rfl,inside⟩ := front
    exact ⟨p,c.toNat,leads,fits,inside,c,encoded⟩

theorem brokenLarge (broken : Broken (b::part) rest) : ¬ b.toNat < 0x80 := by
  intro small
  obtain ⟨c,same⟩ := scalarChar (n := b.toNat) (Or.inl (by omega))
  refine broken.noChar c ⟨part ++ rest,?_⟩
  rw [encodedOne (by omega),byteBack same.symm]
  rfl

theorem brokenReads (broken : Broken part rest) :
    decode (part ++ rest) = replacement::decode rest := by
  cases part with
  | nil => exact absurd rfl broken.bytes
  | cons b part =>
    have large := brokenLarge broken
    have alone : (b::part).length = 1 → part = [] :=
      fun one => List.length_eq_zero_iff.mp (Nat.succ.inj one)
    rw [List.cons_append,decode,decodeFrom,readByte]
    cases lead : pendingAfter? b.toNat with
    | none =>
      have single : part = [] := by
        cases broken.subpart with
        | inl one => exact alone one
        | inr begun =>
          obtain ⟨p,_,leads,_⟩ := begunLead large begun
          rw [lead] at leads
          cases leads
      subst single
      rw [startStray large lead]
      rfl
    | some p =>
      have begun : Begins (b::part) := by
        cases broken.subpart with
        | inl one => rw [alone one]; exact (leadFront lead).begins
        | inr begun => exact begun
      obtain ⟨q,n,leads,fits,inside,c,encoded⟩ := begunLead large begun
      rw [lead] at leads
      cases leads
      have proper : part.length < p.left := by
        have within := inside.length_le
        rw [tailsLength] at within
        by_contra all
        refine broken.noChar c ⟨rest,?_⟩
        rw [encoded,← inside.eq_of_length (by rw [tailsLength]; omega)]
      obtain ⟨q,front,reads⟩ := tailsBegun (leadFront lead) fits proper inside
      rw [startLead lead,reads,stuckReads front broken.longest]
      rfl

end Broken

/- The text that bytes are shown as, told by what stands in them. -/
inductive Shown : Bytes → List Char → Prop where
  | done : Shown [] []
  | char {rest shown} (c : Char) : Shown rest shown → Shown (encodeChar c ++ rest) (c::shown)
  | broken {part rest shown} : Broken part rest → Shown rest shown →
    Shown (part ++ rest) (replacement::shown)

theorem shownDecodes {bs : Bytes} {cs : List Char} (shown : Shown bs cs) : decode bs = cs := by
  induction shown with
  | done => rfl
  | char c _ ih => rw [charReads,ih]
  | broken broken _ ih => rw [brokenReads broken,ih]

theorem brokenStands {bs : Bytes} (bytes : bs ≠ []) (noChar : ∀ c, ¬ encodeChar c <+: bs) :
    ∃ part rest, part ++ rest = bs ∧ Broken part rest := by
  classical
  have one : 1 ≤ bs.length := List.length_pos_iff.mpr bytes
  have first : Subpart (bs.take 1) := Or.inl (List.length_take_of_le one)
  obtain ⟨k,greatest⟩ : ∃ k, Nat.findGreatest (fun k => Subpart (bs.take k)) bs.length = k :=
    ⟨_,rfl⟩
  obtain ⟨most,stands,beyond⟩ := Nat.findGreatest_eq_iff.mp greatest
  have least : 1 ≤ k := by
    by_contra none
    exact beyond (Nat.lt_of_not_le none) one first
  have length : (bs.take k).length = k := List.length_take_of_le most
  have whole := List.take_append_drop k bs
  refine ⟨bs.take k,bs.drop k,whole,?_,?_,stands (by omega),?_⟩
  · rwa [whole]
  · intro empty
    rw [empty] at length
    exact absurd length (by rw [List.length_nil]; omega)
  · intro w within longer subpart
    rw [whole] at within
    rw [length] at longer
    rw [List.prefix_iff_eq_take.mp within] at subpart
    exact beyond longer within.length_le subpart

theorem encodedBytes (c : Char) : encodeChar c ≠ [] := by
  unfold encodeChar
  dsimp only
  split_ifs <;> exact List.cons_ne_nil _ _

theorem decodeShown (bs : Bytes) : Shown bs (decode bs) := by
  induction size : bs.length using Nat.strong_induction_on generalizing bs with
  | _ n ih =>
    by_cases bytes : bs = []
    · rw [bytes]
      exact Shown.done
    by_cases stands : ∃ c, encodeChar c <+: bs
    · obtain ⟨c,rest,rfl⟩ := stands
      have first := List.length_pos_iff.mpr (encodedBytes c)
      rw [List.length_append] at size
      rw [charReads]
      exact Shown.char c (ih rest.length (by omega) rest rfl)
    · obtain ⟨part,rest,rfl,broken⟩ := brokenStands bytes (not_exists.mp stands)
      have first := List.length_pos_iff.mpr broken.bytes
      rw [List.length_append] at size
      rw [brokenReads broken]
      exact Shown.broken broken (ih rest.length (by omega) rest rfl)

theorem decodeExactly {bs : Bytes} {cs : List Char} : decode bs = cs ↔ Shown bs cs := by
  constructor
  · intro decoded
    rw [← decoded]
    exact decodeShown bs
  · exact shownDecodes

theorem textReads (s : String) (b : Bytes) :
    String.ofList (decode (utf8 s ++ b)) = s ++ String.ofList (decode b) := by
  rw [← encodedText,encodeReads,String.ofList_append,String.ofList_toList]

theorem tornTextReads {part : Bytes} {s : String} {b : Bytes} (broken : Broken part (utf8 s ++ b)) :
    String.ofList (decode (part ++ (utf8 s ++ b))) =
      String.singleton replacement ++ s ++ String.ofList (decode b) := by
  rw [brokenReads broken,String.append_assoc,← textReads,String.singleton_eq_ofList,
    ← String.ofList_append]
  rfl

end PaneWatch.Text
