import PaneWatch.Json.Lexeme
import PaneWatch.Proofs.Text.Numeral

/-! Lexemes read back as they were written, in front of whatever may follow a value. -/
namespace PaneWatch.Json
open Text

/- What may stand after a value: a gap, a comma or a closing bracket. -/
def Ends (rest : List Char) : Prop :=
  ∀ c ∈ rest.head?, isGap c = true ∨ c = ',' ∨ c = ']' ∨ c = '\x7d'

theorem gapSkipped {gap : List Char} (blank : gap.all isGap = true) (cs : List Char) :
    afterGap (gap ++ cs) = afterGap cs :=
  List.dropWhile_append_of_pos (List.all_eq_true.mp blank)

theorem noGap : ([] : List Char).all isGap = true := rfl

theorem endsNil : Ends [] := by simp [Ends]

theorem endsMark {c : Char} (mark : c = ',' ∨ c = ']' ∨ c = '\x7d') (rest : List Char) :
    Ends (c::rest) := by
  simpa [Ends] using Or.inr mark

theorem endsClose {gap : List Char} (blank : gap.all isGap = true) {c : Char}
    (mark : c = ',' ∨ c = ']' ∨ c = '\x7d') (rest : List Char) : Ends (gap ++ c::rest) := by
  cases gap with
  | nil => exact endsMark mark rest
  | cons d gap =>
    have : isGap d = true := by simp_all
    simp [Ends,this]

theorem hexReads {d : Nat} (small : d < 16) : hexValue? (hexDigit d) = some d := by
  revert d
  decide

theorem controlReads (r : Rigour) {c : Char} (control : c.toNat < 0x20) :
    ∃ shown, (r = .strict → shown = [c]) ∧ ∀ before rest,
      stringFrom r .plain before
          (['\\','u','0','0',hexDigit (c.toNat / 16),hexDigit (c.toNat % 16)] ++ rest) =
        stringFrom r .plain (shown ++ before) rest := by
  have high := hexReads (show c.toNat / 16 < 16 by omega)
  have low := hexReads (show c.toNat % 16 < 16 by omega)
  have code : 16 * (c.toNat / 16) + c.toNat % 16 = c.toNat := Nat.div_add_mod c.toNat 16
  have zero : hexValue? '0' = some 0 := rfl
  have notLow : isLowHalf c.toNat = false := by simp [isLowHalf]; omega
  have notHigh : isHighHalf c.toNat = false := by simp [isHighHalf]; omega
  have long : ∀ rest, shortOfFour
      ('0':: '0'::hexDigit (c.toNat / 16)::hexDigit (c.toNat % 16)::rest) = false := by
    intro rest
    have first := (hexDigit (c.toNat / 16)).utf8Size_pos
    have second := (hexDigit (c.toNat % 16)).utf8Size_pos
    have single : '0'.utf8Size = 1 := rfl
    simp only [shortOfFour,List.take_succ_cons,List.take_zero,List.foldl_cons,List.foldl_nil,
      single,decide_eq_false_iff_not]
    omega
  cases r with
  | strict =>
    refine ⟨[c],by simp,fun before rest => ?_⟩
    simp [stringFrom,move,escapeRead,long,zero,high,low,code,codeRead,notLow,notHigh]
  | skimming =>
    refine ⟨[],by simp,fun before rest => ?_⟩
    simp [stringFrom,move,escapeRead,long,zero,high,low,codeRead]

theorem escapeReads (r : Rigour) (c : Char) : ∃ shown, (r = .strict → shown = [c]) ∧
    ∀ before rest, stringFrom r .plain before (escape c ++ rest) =
      stringFrom r .plain (shown ++ before) rest := by
  unfold escape
  split
  · subst c; exact ⟨['"'],by simp,fun _ _ => rfl⟩
  split
  · subst c; exact ⟨['\\'],by simp,fun _ _ => rfl⟩
  split
  · rename_i notQuote notBackslash printed
    refine ⟨[c],by simp,fun _ _ => ?_⟩
    simp [stringFrom,move,notQuote,notBackslash,Nat.not_lt.mpr printed]
  split
  · subst c; exact ⟨['\x08'],by simp,fun _ _ => rfl⟩
  split
  · subst c; exact ⟨['\t'],by simp,fun _ _ => rfl⟩
  split
  · subst c; exact ⟨['\n'],by simp,fun _ _ => rfl⟩
  split
  · subst c; exact ⟨['\x0c'],by simp,fun _ _ => rfl⟩
  split
  · subst c; exact ⟨['\r'],by simp,fun _ _ => rfl⟩
  · exact controlReads r (by omega)

theorem quotedReads (r : Rigour) (s : String) : ∃ t, (r = .strict → t = s) ∧
    ∀ rest, string r (s.toList.flatMap escape ++ '"'::rest) = .ok (t,rest) := by
  have body : ∀ cs : List Char, ∃ shown, (r = .strict → shown = cs.reverse) ∧ ∀ before rest,
      stringFrom r .plain before (cs.flatMap escape ++ rest) =
        stringFrom r .plain (shown ++ before) rest := by
    intro cs
    induction cs with
    | nil => exact ⟨[],by simp,fun _ _ => rfl⟩
    | cons c cs ih =>
      obtain ⟨first,sameFirst,readsFirst⟩ := escapeReads r c
      obtain ⟨others,sameOthers,readsOthers⟩ := ih
      refine ⟨others ++ first,fun strict => ?_,fun before rest => ?_⟩
      · simp [sameFirst strict,sameOthers strict]
      · simp [readsFirst,readsOthers]
  obtain ⟨shown,same,reads⟩ := body s.toList
  refine ⟨String.ofList shown.reverse,fun strict => ?_,fun rest => ?_⟩
  · simp [same strict]
  · rw [string,reads]
    simp [stringFrom,move]

theorem bindOk {α β : Type} {x : Reading α} {f : α → Reading β} {b : β} :
    x >>= f = .ok b ↔ ∃ a, x = .ok a ∧ f a = .ok b := by
  cases x <;> simp [bind,Except.bind]

def Apart (rest : List Char) : Prop :=
  NoDigit rest ∧ ∀ c ∈ rest.head?, c ≠ '.' ∧ c ≠ 'e' ∧ c ≠ 'E'

theorem endsApart {rest : List Char} (ends : Ends rest) : Apart rest := by
  refine ⟨fun c first => ?_,fun c first => ?_⟩ <;>
  · rcases ends c first with gap | rfl | rfl | rfl
    · simp only [isGap,Bool.or_eq_true,beq_iff_eq] at gap
      rcases gap with ((rfl | rfl) | rfl) | rfl <;> decide
    all_goals decide

variable {q r : Rigour} {cs left rest : List Char}

theorem someDigitsMore {ds : List Char} (found : someDigits q cs = .ok (ds,left))
    (stop : NoDigit rest) : someDigits r (cs ++ rest) = .ok (ds,left ++ rest) := by
  unfold someDigits at found ⊢
  cases taken : digits? cs with
  | none =>
    rw [taken] at found
    cases empty : cs.isEmpty <;> simp [empty] at found
  | some pair =>
    rw [taken] at found
    obtain ⟨rfl⟩ := Except.ok.inj found
    rw [digitsMore taken stop]

theorem wholePartMore {ds : List Char} (found : wholePart q cs = .ok (ds,left))
    (stop : NoDigit rest) : wholePart r (cs ++ rest) = .ok (ds,left ++ rest) := by
  unfold wholePart at found ⊢
  obtain ⟨⟨digits,after⟩,taken,kept⟩ := bindOk.mp found
  refine bindOk.mpr ⟨(digits,after ++ rest),someDigitsMore taken stop,?_⟩
  dsimp only at kept ⊢
  split at kept
  · cases kept
  · cases kept
    rfl

theorem fractionPartMore {places : Option (List Char)}
    (found : fractionPart q cs = .ok (places,left)) (apart : Apart rest) :
    fractionPart r (cs ++ rest) = .ok (places,left ++ rest) := by
  cases cs with
  | nil =>
    cases found
    cases rest with
    | nil => rfl
    | cons c rest =>
      have notPoint := (apart.2 c rfl).1
      simp [fractionPart,notPoint]
  | cons c cs =>
    by_cases point : c = '.'
    · subst c
      obtain ⟨⟨ds,after⟩,taken,kept⟩ := bindOk.mp found
      cases kept
      exact bindOk.mpr ⟨_,someDigitsMore taken apart.1,rfl⟩
    · have kept : fractionPart q (c::cs) = .ok (none,c::cs) := by simp [fractionPart,point]
      cases kept.symm.trans found
      simp [fractionPart,point]

theorem signPartMore (some : cs ≠ []) :
    signPart (cs ++ rest) = ((signPart cs).1,(signPart cs).2 ++ rest) := by
  cases cs with
  | nil => exact absurd rfl some
  | cons c cs => simp only [List.cons_append,signPart]; split <;> rfl

theorem exponentPartMore {exponent : Option Exponent}
    (found : exponentPart q cs = .ok (exponent,left)) (apart : Apart rest) :
    exponentPart r (cs ++ rest) = .ok (exponent,left ++ rest) := by
  cases cs with
  | nil =>
    cases found
    cases rest with
    | nil => rfl
    | cons c rest =>
      have notMark := (apart.2 c rfl).2
      simp [exponentPart,notMark]
  | cons c cs =>
    by_cases mark : c = 'e' ∨ c = 'E'
    · simp only [exponentPart,mark,↓reduceIte,List.cons_append] at found ⊢
      obtain ⟨⟨ds,after⟩,taken,kept⟩ := bindOk.mp found
      have some : cs ≠ [] := by
        rintro rfl
        cases taken
      cases kept
      rw [signPartMore some]
      exact bindOk.mpr ⟨_,someDigitsMore taken apart.1,rfl⟩
    · have kept : exponentPart q (c::cs) = .ok (none,c::cs) := by simp [exponentPart,mark]
      cases kept.symm.trans found
      simp [exponentPart,mark]

theorem minusPartMore (nonempty : cs ≠ []) :
    minusPart (cs ++ rest) = ((minusPart cs).1,(minusPart cs).2 ++ rest) := by
  cases cs with
  | nil => exact absurd rfl nonempty
  | cons c cs => by_cases minus : c = '-' <;> simp [minusPart,minus]

/- A number that is read off some text is read the same, by whoever reads it, when the text goes
on with what may follow a value; only a strict reader may find one too large that was skimmed. -/
theorem numberMoreUnlessPast {v : Value} (found : number q cs = .ok (v,left))
    (apart : Apart rest) : number r (cs ++ rest) = .ok (v,left ++ rest) ∨
      (r = .strict ∧ q ≠ .strict) ∧ number r (cs ++ rest) = .error .grammar := by
  have nonempty : cs ≠ [] := by
    rintro rfl
    cases q <;> cases found
  unfold number at found ⊢
  rw [minusPartMore nonempty]
  generalize minusPart cs = parts at found ⊢
  obtain ⟨⟨whole,afterWhole⟩,wholeTaken,found⟩ := bindOk.mp found
  obtain ⟨⟨places,afterPlaces⟩,placesTaken,found⟩ := bindOk.mp found
  obtain ⟨⟨exponent,afterExponent⟩,exponentTaken,found⟩ := bindOk.mp found
  have sameWhole := wholePartMore (r := r) wholeTaken apart.1
  have samePlaces := fractionPartMore (r := r) placesTaken apart
  have sameExponent := exponentPartMore (r := r) exponentTaken apart
  simp only [sameWhole,samePlaces,sameExponent,bind,Except.bind]
  dsimp only at found
  split at found
  · cases found
  · rename_i within
    cases found
    split
    · rename_i past
      exact .inr ⟨⟨past.1,fun strict => within ⟨strict,past.2⟩⟩,rfl⟩
    · exact .inl rfl

theorem numberMore {v : Value} (found : number r cs = .ok (v,left)) (apart : Apart rest) :
    number r (cs ++ rest) = .ok (v,left ++ rest) := by
  rcases numberMoreUnlessPast found apart with same | ⟨⟨strict,notStrict⟩,_⟩
  · exact same
  · exact absurd strict notStrict

/- No double is as large as `10^309`, so the count of places settles nearly every numeral. -/
theorem withinDouble {n : Nat} (small : n < doubleLimit) : pastDouble (decimal n) 0 = false := by
  have short : (decimal n).length ≤ 309 :=
    (decimalLength (by decide)).mpr (small.trans (by decide +kernel))
  rcases n.eq_zero_or_pos with rfl | positive
  · decide +kernel
  · have led : (decimal n).dropWhile (· == '0') = decimal n := by
      rcases digits : decimal n with _ | ⟨d,ds⟩
      · rfl
      · have lead := decimalLead positive
        simp_all
    simp only [pastDouble,led,decimalReads]
    split
    · rfl
    split
    · omega
    · simp [Nat.not_le.mpr small]

theorem wholePartDecimal (n : Nat) : wholePart r (decimal n) = .ok (decimal n,[]) := by
  have found : digits? (decimal n) = some (decimal n,[]) := by
    have stop : NoDigit [] := by simp [NoDigit]
    simpa using digitsRead (decimalDigits n) (decimalSome n) stop
  have taken : someDigits r (decimal n) = .ok (decimal n,[]) := by rw [someDigits,found]
  refine bindOk.mpr ⟨_,taken,?_⟩
  rcases n.eq_zero_or_pos with rfl | positive
  · rw [decimal]; rfl
  · have lead := decimalLead positive
    dsimp only
    split
    · rename_i digits
      simp [digits] at lead
    · rfl

def Exact (i : Int) : Prop := i.natAbs < doubleLimit
instance (i : Int) : Decidable (Exact i) := by unfold Exact; infer_instance

theorem integerParts (i : Int) :
    minusPart (integerText i) = (decide (i < 0),decimal i.natAbs) := by
  by_cases negative : i < 0
  · simp [integerText,negative,minusPart]
  · rw [integerText,if_neg negative]
    rcases digits : decimal i.natAbs with _ | ⟨d,ds⟩
    · exact absurd digits (decimalSome i.natAbs)
    · have digit : d.isDigit = true := decimalDigits i.natAbs d (by simp [digits])
      have notMinus : d ≠ '-' := by rintro rfl; contradiction
      simp [minusPart,negative,notMinus]

theorem integerValue (i : Int) :
    numberValue (decide (i < 0)) (decimal i.natAbs) none none = .integer i := by
  by_cases negative : i < 0
  · have nonzero : i.natAbs ≠ 0 := by omega
    have back : -(i.natAbs : Int) = i := by omega
    simp only [numberValue,decimalReads,negative,decide_true,↓reduceIte,nonzero,back]
  · have back : (i.natAbs : Int) = i := by omega
    simp only [numberValue,decimalReads,negative,decide_false,Bool.false_eq_true,↓reduceIte,back]

theorem integerReads {i : Int} (exact : r = .strict → Exact i) :
    number r (integerText i) = .ok (.integer i,[]) := by
  have within : ¬ (r = .strict ∧ pastDouble (decimal i.natAbs) 0 = true) := by
    rintro ⟨strict,past⟩
    rw [withinDouble (exact strict)] at past
    cases past
  rw [number,integerParts]
  refine bindOk.mpr ⟨_,wholePartDecimal i.natAbs,?_⟩
  refine bindOk.mpr ⟨(none,[]),rfl,?_⟩
  refine bindOk.mpr ⟨(none,[]),rfl,?_⟩
  simpa [integerValue] using within

end PaneWatch.Json
