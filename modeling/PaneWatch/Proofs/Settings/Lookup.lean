import PaneWatch.Proofs.Text.Trim
import PaneWatch.Settings

/-! Settings from variables. A variable counts if it spells an unsigned number of milliseconds of
64 bits, with blanks around it and a plus sign in front of it if one likes. Each knob follows its
own variable and no other. -/
namespace PaneWatch
open Text

namespace Settings

structure Spells (text : String) (v : Nat) : Prop where
  small : v ≤ 2^64 - 1
  spelt : ∃ before ∈ manyOf isBlank, ∃ sign ∈ maybe {['+']}, ∃ ds ∈ someOf Char.isDigit,
    ∃ after ∈ manyOf isBlank,
      text.toList = before ++ (sign ++ ds) ++ after ∧ decimalValue ds = v

def afterPlus (cs : List Char) : List Char :=
  match cs with
  | '+'::cs => cs
  | _ => cs

theorem plusSplit (cs : List Char) : ∃ sign ∈ maybe {['+']}, cs = sign ++ afterPlus cs := by
  unfold afterPlus
  split
  · exact ⟨['+'],.inr rfl,rfl⟩
  · exact ⟨[],.inl rfl,rfl⟩

theorem plusTaken {sign ds : List Char} (plus : sign ∈ maybe {['+']})
    (digits : ds ∈ someOf Char.isDigit) : afterPlus (sign ++ ds) = ds := by
  cases plus with
  | inl none =>
    cases none
    obtain ⟨c,first,digit⟩ := someStarts digits
    obtain ⟨rest,same⟩ := List.head?_eq_some_iff.mp first
    unfold afterPlus
    split
    · rename_i shown
      rw [same,List.nil_append] at shown
      rw [(List.cons.inj shown).1] at digit
      contradiction
    · rfl
  | inr one =>
    cases one
    rfl

theorem digitsTest (cs : List Char) :
    (!cs.isEmpty && cs.all Char.isDigit) = true ↔ cs ∈ someOf Char.isDigit := by
  rw [Bool.and_eq_true,List.all_eq_true,Bool.not_eq_true',List.isEmpty_eq_false_iff]
  rfl

theorem numeralBare {sign ds : List Char} (plus : sign ∈ maybe {['+']})
    (digits : ds ∈ someOf Char.isDigit) : Bare (sign ++ ds) := by
  have start : Starts (fun c => isBlank c = false) ds :=
    startsAs (someStarts digits) fun _ => digitNotBlank
  constructor
  · intro c first
    cases plus with
    | inl none =>
      cases none
      obtain ⟨d,head,notBlank⟩ := start
      rw [List.nil_append,head] at first
      cases first
      exact notBlank
    | inr one =>
      cases one
      cases first
      rfl
  · intro c last
    rw [List.getLast?_append_of_ne_nil _ digits.1] at last
    exact digitNotBlank (digits.2 c (List.mem_of_getLast? last))

theorem millisExactly (text : String) (d : Span) :
    millis? text = some d ↔ ∃ v, Spells text v ∧ d = Span.ofMillis v := by
  have opened : millis? text =
      if !(afterPlus (trim text.toList)).isEmpty && (afterPlus (trim text.toList)).all Char.isDigit
      then (valueBelow? UInt64.size (afterPlus (trim text.toList))).bind fun ms =>
        some (Span.ofMillis ms)
      else none := rfl
  have limit : UInt64.size = 2^64 - 1 + 1 := rfl
  rw [opened]
  constructor
  · intro found
    split at found
    · rename_i test
      obtain ⟨v,value,same⟩ := Option.bind_eq_some_iff.mp found
      obtain ⟨worth,small⟩ := valueExactly.mp value
      obtain ⟨sign,plus,split⟩ := plusSplit (trim text.toList)
      obtain ⟨before,blankBefore,after,blankAfter,whole⟩ := (trimmedTrim text.toList).around
      rw [split] at whole
      exact ⟨v,⟨by omega,before,blankBefore,sign,plus,_,(digitsTest _).mp test,after,blankAfter,
        whole,worth⟩,(Option.some.inj same).symm⟩
    · cases found
  · intro spells
    obtain ⟨v,⟨small,before,blankBefore,sign,plus,ds,digits,after,blankAfter,whole,worth⟩,same⟩ :=
      spells
    have trimmed : trim text.toList = sign ++ ds :=
      trimExactly.mpr ⟨numeralBare plus digits,before,blankBefore,after,blankAfter,whole⟩
    have value : valueBelow? UInt64.size ds = some v := valueExactly.mpr ⟨worth,by omega⟩
    rw [trimmed,plusTaken plus digits,if_pos ((digitsTest ds).mpr digits),value,same]
    rfl

def Given (lookup : String → Option String) (name : String) (v : Nat) : Prop :=
  ∃ text, lookup name = some text ∧ Spells text v

theorem givenExactly (lookup : String → Option String) (name : String) (d : Span) :
    (lookup name).bind millis? = some d ↔ ∃ v, Given lookup name v ∧ d = Span.ofMillis v := by
  rw [Option.bind_eq_some_iff]
  simp only [millisExactly,Given]
  constructor
  · intro found
    obtain ⟨text,value,v,spells,same⟩ := found
    exact ⟨v,⟨text,value,spells⟩,same⟩
  · intro found
    obtain ⟨v,⟨text,value,spells⟩,same⟩ := found
    exact ⟨text,value,v,spells,same⟩

/- What a knob is when its variable gives a number, and what it is when it gives none. -/
structure Follows (lookup : String → Option String) (name : String) (default knob : Span) :
    Prop where
  given : ∀ v, knob = Span.ofMillis v ↔
    Given lookup name v ∨ (∀ w, ¬ Given lookup name w) ∧ default = Span.ofMillis v
  otherwise : (∀ v, ¬ Given lookup name v) → knob = default

theorem knobFollows (lookup : String → Option String) (name : String) (default : Span) :
    Follows lookup name default (((lookup name).bind millis?).getD default) := by
  cases found : (lookup name).bind millis? with
  | none =>
    have absent : ∀ v, ¬ Given lookup name v := by
      intro v given
      have shown := (givenExactly lookup name _).mpr ⟨v,given,rfl⟩
      rw [found] at shown
      cases shown
    refine ⟨fun v => ⟨fun same => .inr ⟨absent,same⟩,fun either => ?_⟩,fun _ => rfl⟩
    cases either with
    | inl given => exact absurd given (absent v)
    | inr plain => exact plain.2
  | some d =>
    obtain ⟨v,given,same⟩ := (givenExactly lookup name d).mp found
    have only : ∀ w, Given lookup name w → d = Span.ofMillis w := by
      intro w other
      have shown := (givenExactly lookup name _).mpr ⟨w,other,rfl⟩
      exact Option.some.inj (found.symm.trans shown)
    refine ⟨fun w => ⟨fun knob => .inl ?_,fun either => ?_⟩,fun absent => absurd given (absent v)⟩
    · have nanos := congrArg Span.nanos (same.symm.trans knob)
      simp only [Span.nanos_ofMillis] at nanos
      have equal : v = w := by omega
      exact equal ▸ given
    · cases either with
      | inl other => exact only w other
      | inr plain => exact absurd given (plain.1 v)

theorem numeralSpells (n : UInt64) (zeros : Nat) {before after : String}
    (blankBefore : before.toList ∈ manyOf isBlank) (blankAfter : after.toList ∈ manyOf isBlank) :
    Spells (before ++ String.ofList (List.replicate zeros '0' ++ decimal n.toNat) ++ after)
      n.toNat := by
  have worth : decimalValue (List.replicate zeros '0' ++ decimal n.toNat) = n.toNat := by
    rw [decimalValueZeros,decimalReads]
  have small := n.toNat_lt
  exact ⟨by omega,before.toList,blankBefore,[],.inl rfl,_,zerosDigits _ _,after.toList,blankAfter,
    by simp,worth⟩

theorem knobsFollowVariables (lookup : String → Option String) :
    Follows lookup pollVariable defaultPollInterval (ofLookup lookup).pollInterval ∧
    Follows lookup delayVariable defaultCaptureDelay (ofLookup lookup).captureDelay ∧
    (∀ other : String → Option String, lookup pollVariable = other pollVariable →
      (ofLookup lookup).pollInterval = (ofLookup other).pollInterval) ∧
    (∀ other : String → Option String, lookup delayVariable = other delayVariable →
      (ofLookup lookup).captureDelay = (ofLookup other).captureDelay) ∧
    ∀ (n : UInt64) (zeros : Nat) (before after : String),
      before.toList ∈ manyOf isBlank → after.toList ∈ manyOf isBlank →
      (lookup pollVariable = some
          (before ++ String.ofList (List.replicate zeros '0' ++ decimal n.toNat) ++ after) →
        (ofLookup lookup).pollInterval = Span.ofMillis n.toNat) ∧
      (lookup delayVariable = some
          (before ++ String.ofList (List.replicate zeros '0' ++ decimal n.toNat) ++ after) →
        (ofLookup lookup).captureDelay = Span.ofMillis n.toNat) := by
  have poll := knobFollows lookup pollVariable defaultPollInterval
  have delay := knobFollows lookup delayVariable defaultCaptureDelay
  refine ⟨poll,delay,?_,?_,?_⟩
  · intro other same
    unfold ofLookup
    rw [same]
  · intro other same
    unfold ofLookup
    rw [same]
  · intro n zeros before after blankBefore blankAfter
    have spells := numeralSpells n zeros blankBefore blankAfter
    exact ⟨fun value => (poll.given _).mpr (.inl ⟨_,value,spells⟩),
      fun value => (delay.given _).mpr (.inl ⟨_,value,spells⟩)⟩

def unevenVariables (name : String) : Option String :=
  if name = pollVariable then some "\u20030018446744073709551615 \n" else some "1.5"

theorem knobsFollowVariablesUneven :
    unevenVariables pollVariable = some ("\u2003" ++ String.ofList (List.replicate 2 '0' ++
      decimal (18446744073709551615 : UInt64).toNat) ++ " \n") ∧
    (ofLookup unevenVariables).pollInterval = Span.ofMillis 18446744073709551615 ∧
    (ofLookup unevenVariables).captureDelay = (ofLookup fun _ => some "1.5").captureDelay ∧
    (ofLookup fun _ => some "1.5").captureDelay = defaultCaptureDelay := by
  have numeral : decimal (18446744073709551615 : UInt64).toNat = "18446744073709551615".toList := by
    decide +kernel
  have value : unevenVariables pollVariable = some ("\u2003" ++ String.ofList
      (List.replicate 2 '0' ++ decimal (18446744073709551615 : UInt64).toNat) ++ " \n") := by
    rw [numeral]
    decide
  have before : "\u2003".toList ∈ manyOf isBlank := List.all_eq_true.mp (by decide)
  have after : " \n".toList ∈ manyOf isBlank := List.all_eq_true.mp (by decide)
  obtain ⟨_,_,_,delay,numbers⟩ := knobsFollowVariables unevenVariables
  have poll := (numbers 18446744073709551615 2 _ _ before after).1 value
  exact ⟨value,poll,delay _ (by decide),by decide⟩

example : ["","+","-5","++5","1.5","1 2","٣","18446744073709551616"].map millis? =
    List.replicate 8 none := by
  decide

end Settings
end PaneWatch
