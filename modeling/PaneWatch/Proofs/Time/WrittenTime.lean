import Mathlib.Data.List.Basic
import PaneWatch.Proofs.Text.Numeral
import PaneWatch.Time.Timestamp

/-! A moment read back from its written form: any year that has a date, any fraction of a second,
and a leap second. -/
namespace PaneWatch
open Text

namespace Timestamp

theorem startShown {c : Char} (shown : isBlank c = false) (cs : List Char) :
    trimStart (c::cs) = c::cs :=
  List.dropWhile_cons_of_neg (by simp [shown])

theorem startDigits {ds : List Char} (digits : ∀ c ∈ ds, c.isDigit = true) (some : ds ≠ [])
    (rest : List Char) : trimStart (ds ++ rest) = ds ++ rest := by
  obtain ⟨d,more,rfl⟩ := List.exists_cons_of_ne_nil some
  exact startShown (digitNotBlank (digits d List.mem_cons_self)) (more ++ rest)

theorem numeralRead {most n : Nat} (room : 1 ≤ most) (small : n < 10^most) (rest : List Char) :
    numeral? most (padded most n ++ rest) = some (n,rest) := by
  have width := paddedLength room small
  have taken : (padded most n ++ rest).take most = padded most n := List.take_left' width
  have digits : (padded most n).takeWhile Char.isDigit = padded most n :=
    List.takeWhile_eq_self_iff.mpr (paddedDigits most n)
  rw [numeral?,taken,digits]
  simp [paddedSome,paddedReads]

theorem fieldRead {n : Nat} (small : n < 100) (rest : List Char) :
    field? (padded 2 n ++ rest) = some (n,rest) := by
  rw [field?,startDigits (paddedDigits 2 n) (paddedSome 2 n)]
  exact numeralRead (by decide) small rest

theorem separatorRead {c : Char} (shown : isBlank c = false) (rest : List Char) :
    separated? c (c::rest) = some rest := by
  rw [separated?,startShown shown]
  exact if_pos rfl

/- A year without a sign starts with a digit, so its first character is taken for no sign. -/
theorem unsignedYearRead {n : Nat} (small : n < 10000) (rest : List Char) :
    year? (padded 4 n ++ rest) = some ((n : Int),rest) := by
  have numeral : numeral? 4 (padded 4 n ++ rest) = some (n,rest) :=
    numeralRead (by decide) small rest
  rw [year?,startDigits (paddedDigits 4 n) (paddedSome 4 n)]
  obtain ⟨d,more,same⟩ := List.exists_cons_of_ne_nil (paddedSome 4 n)
  have digit : d.isDigit = true := paddedDigits 4 n d (by rw [same]; exact List.mem_cons_self)
  have notMinus : d ≠ '-' := by rintro rfl; cases digit
  have notPlus : d ≠ '+' := by rintro rfl; cases digit
  rw [same] at numeral ⊢
  rw [List.cons_append] at numeral ⊢
  simp [signedYear?,notMinus,notPlus,numeral]

theorem signedDigits (n : Nat) (rest : List Char) :
    digits? (padded 4 n ++ '-'::rest) = some (padded 4 n,'-'::rest) :=
  paddedTaken 4 n (by simp [NoDigit])

theorem yearRead (year : Int) (rest : List Char) :
    year? (yearText year ++ '-'::rest) = some (year,'-'::rest) := by
  unfold yearText
  split
  · rename_i plain
    rw [unsignedYearRead (by omega)]
    simp only [Option.some.injEq,Prod.mk.injEq,and_true]
    omega
  · split
    · rw [List.cons_append,year?,startShown rfl]
      simp only [signedYear?,signedDigits,paddedReads,Option.map_some,Option.some.injEq,
        Prod.mk.injEq,and_true]
      omega
    · rw [List.cons_append,year?,startShown rfl]
      simp only [signedYear?,signedDigits,paddedReads,Option.map_some,Option.some.injEq,
        Prod.mk.injEq,and_true]
      omega

theorem nanosRead {places : Nat} {part : Nat} (fits : part < 10^places) (room : 1 ≤ places)
    (few : places ≤ 9) : nanosOf (padded places part) = part * 10^(9 - places) := by
  have width := paddedLength room fits
  rw [nanosOf,List.take_of_length_le (by omega),paddedReads,width]
  rfl

theorem placesRead {places part : Nat} (fits : part < 10^places) (room : 1 ≤ places)
    (few : places ≤ 9) (rest : List Char) :
    fraction? ('.'::padded places part ++ 'Z'::rest) = some (part * 10^(9 - places),'Z'::rest) := by
  have stop : NoDigit ('Z'::rest) := by simp [NoDigit]
  have found := paddedTaken places part stop
  simp [fraction?,found,nanosRead fits room few]

theorem fractionRead {nanos : Nat} (small : nanos < 1000000000) (rest : List Char) :
    fraction? (fractionText nanos ++ 'Z'::rest) = some (nanos,'Z'::rest) := by
  unfold fractionText
  split
  · subst nanos; rfl
  split
  · rw [placesRead (by omega) (by decide) (by decide)]
    simp only [Option.some.injEq,Prod.mk.injEq,and_true]
    omega
  split
  · rw [placesRead (by omega) (by decide) (by decide)]
    simp only [Option.some.injEq,Prod.mk.injEq,and_true]
    omega
  · rw [placesRead (by omega) (by decide) (by decide)]
    simp

theorem utcRead (t : Timestamp) : t.toUtc? 0 = some t := by
  obtain ⟨hour,minute,_,_⟩ := t.inDay
  have minutes : ((t.hour * 60 + t.minute : Nat) : Int) - 0 = (t.hour * 60 + t.minute : Nat) := by
    omega
  have inDay : ¬ ((t.hour * 60 + t.minute : Nat) : Int) < 0 ∧
      ((t.hour * 60 + t.minute : Nat) : Int) < 1440 := by omega
  have back : (((t.hour * 60 + t.minute : Nat) : Int) % 1440).toNat = t.hour * 60 + t.minute := by
    omega
  have hours : (t.hour * 60 + t.minute) / 60 = t.hour := by omega
  have rest : (t.hour * 60 + t.minute) % 60 = t.minute := by omega
  simp only [toUtc?,minutes,inDay.1,inDay.2,↓reduceIte,back,hours,rest]
  simp [of?,t.inDay]

theorem daysShort (year : Int) (month : Nat) : Date.daysIn year month ≤ 31 := by
  unfold Date.daysIn
  split
  · split <;> decide
  · split <;> decide

theorem textRead (t : Timestamp) : ofText? t.text = some t := by
  obtain ⟨_,_,_,month,_,day⟩ := t.date.named
  obtain ⟨hour,minute,second,nanos⟩ := t.inDay
  have days := daysShort t.date.year t.date.month
  have date : Date.of? t.date.year t.date.month t.date.day = some t.date := by
    simp [Date.of?,t.date.named]
  have time : of? t.date t.hour t.minute t.second t.nanos = some t := by simp [of?,t.inDay]
  have shown : t.text = yearText t.date.year ++ '-'::(padded 2 t.date.month ++
      '-'::(padded 2 t.date.day ++ 'T'::(padded 2 t.hour ++ ':'::(padded 2 t.minute ++
        ':'::(padded 2 t.second ++ (fractionText t.nanos ++ ['Z'])))))) := by simp [text]
  rw [ofText?,shown]
  refine Option.bind_eq_some_iff.mpr ⟨_,yearRead _ _,?_⟩
  refine Option.bind_eq_some_iff.mpr ⟨_,separatorRead rfl _,?_⟩
  refine Option.bind_eq_some_iff.mpr ⟨_,fieldRead (by omega) _,?_⟩
  refine Option.bind_eq_some_iff.mpr ⟨_,separatorRead rfl _,?_⟩
  refine Option.bind_eq_some_iff.mpr ⟨_,fieldRead (by omega) _,?_⟩
  refine Option.bind_eq_some_iff.mpr ⟨_,rfl,?_⟩
  refine Option.bind_eq_some_iff.mpr ⟨_,fieldRead (by omega) _,?_⟩
  refine Option.bind_eq_some_iff.mpr ⟨_,separatorRead rfl _,?_⟩
  refine Option.bind_eq_some_iff.mpr ⟨_,fieldRead (by omega) _,?_⟩
  refine Option.bind_eq_some_iff.mpr ⟨_,separatorRead rfl _,?_⟩
  refine Option.bind_eq_some_iff.mpr ⟨_,fieldRead (by omega) _,?_⟩
  refine Option.bind_eq_some_iff.mpr ⟨_,fractionRead nanos _,?_⟩
  refine Option.bind_eq_some_iff.mpr ⟨(0,[]),rfl,?_⟩
  refine Option.bind_eq_some_iff.mpr ⟨_,date,?_⟩
  exact Option.bind_eq_some_iff.mpr ⟨_,time,utcRead t⟩

/- The same moment, written as freely as it may be. -/
example : ofText? " 2012-1 - 2 3:4: 5 \u2212 0100".toList = none ∧
    ofText? " 2012-1 - 2 3:4: 5 \u221201: 00 ".toList =
      ofText? "2012-01-02T04:04:05Z".toList := by decide

end Timestamp
end PaneWatch
