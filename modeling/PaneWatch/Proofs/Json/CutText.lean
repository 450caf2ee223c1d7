import PaneWatch.Proofs.Json.FormText

/-! Text cut short. A front of the compact text of a value is read up to where it ends, and then
the reader says that the text is cut short; it has found nothing wrong before. Only a numeral may
end anywhere and still be one, of a number nearer to zero. -/
namespace PaneWatch.Json
open Text

def Cut (w text : List Char) : Prop := ∃ c more, w ++ c::more = text

section Cuts

variable {w a b : List Char} {c : Char}

theorem properCut (front : w <+: a) (proper : w ≠ a) : Cut w a := by
  obtain ⟨more,rfl⟩ := front
  cases more with
  | nil => exact absurd (List.append_nil w).symm proper
  | cons c more => exact ⟨c,more,rfl⟩

theorem notCutNil : ¬ Cut w [] := by
  intro cut
  obtain ⟨c,more,same⟩ := cut
  exact List.cons_ne_nil c more (List.append_eq_nil_iff.mp same).2

theorem cutCons (cut : Cut w (c::a)) : w = [] ∨ ∃ v, w = c::v ∧ Cut v a := by
  obtain ⟨d,more,same⟩ := cut
  cases w with
  | nil => exact Or.inl rfl
  | cons e v =>
    obtain ⟨rfl,behind⟩ := List.cons.inj same
    exact Or.inr ⟨v,rfl,d,more,behind⟩

theorem cutSingle (cut : Cut w [c]) : w = [] := by
  cases cutCons cut with
  | inl empty => exact empty
  | inr inside =>
    obtain ⟨v,_,behind⟩ := inside
    exact absurd behind notCutNil

theorem cutSplit (cut : Cut w (a ++ b)) : Cut w a ∨ ∃ v, w = a ++ v ∧ Cut v b := by
  induction a generalizing w with
  | nil => exact Or.inr ⟨w,rfl,cut⟩
  | cons c a ih =>
    cases cutCons cut with
    | inl empty => exact Or.inl ⟨c,a,by rw [empty]; rfl⟩
    | inr inside =>
      obtain ⟨v,rfl,inside⟩ := inside
      cases ih inside with
      | inl first =>
        obtain ⟨d,more,same⟩ := first
        exact Or.inl ⟨d,more,by rw [List.cons_append,same]⟩
      | inr behind =>
        obtain ⟨u,rfl,behind⟩ := behind
        exact Or.inr ⟨u,rfl,behind⟩

theorem cutTake (cut : Cut w a) : ∃ k, k < a.length ∧ w = a.take k := by
  obtain ⟨c,more,rfl⟩ := cut
  refine ⟨w.length,?_,List.take_left.symm⟩
  rw [List.length_append,List.length_cons]
  omega

theorem cutEnds (ends : Ends a) (cut : Cut w a) : Ends w := by
  obtain ⟨c,more,rfl⟩ := cut
  cases w with
  | nil => exact endsNil
  | cons d w => exact ends

end Cuts

section Lexemes

variable {w : List Char}

theorem wordCut {letters : List Char} (cut : Cut w letters) :
    word letters w = .error .cutShort := by
  induction letters generalizing w with
  | nil => exact absurd cut notCutNil
  | cons c letters ih =>
    cases cutCons cut with
    | inl empty => rw [empty]; rfl
    | inr inside =>
      obtain ⟨v,rfl,behind⟩ := inside
      rw [word,if_pos rfl]
      exact ih behind

/- An escape that names a code is missed as soon as the text ends before its four digits do. -/
theorem shortCut {high low : Char} (single : high.utf8Size = 1)
    (cut : Cut w ['0','0',high,low]) : shortOfFour w = true := by
  obtain ⟨k,short,rfl⟩ := cutTake cut
  match k,short with
  | 0,_ => rfl
  | 1,_ => rfl
  | 2,_ => rfl
  | 3,_ =>
    have zero : '0'.utf8Size = 1 := rfl
    simp [shortOfFour,zero,single]

theorem namedCut {c : Char} (cut : Cut w ['\\',c]) (before : List Char) :
    stringFrom .strict .plain before w = .error .cutShort := by
  cases cutCons cut with
  | inl empty => rw [empty]; rfl
  | inr inside =>
    obtain ⟨v,rfl,behind⟩ := inside
    rw [cutSingle behind]
    rfl

theorem codedCut {c : Char} (control : c.toNat < 0x20)
    (cut : Cut w ['\\','u','0','0',hexDigit (c.toNat / 16),hexDigit (c.toNat % 16)])
    (before : List Char) : stringFrom .strict .plain before w = .error .cutShort := by
  have single : ∀ d, d < 2 → (hexDigit d).utf8Size = 1 := by decide
  have named : Cut w (['\\','u'] ++ ['0','0',hexDigit (c.toNat / 16),hexDigit (c.toNat % 16)]) :=
    cut
  cases cutSplit named with
  | inl first => exact namedCut first before
  | inr behind =>
    obtain ⟨v,rfl,digits⟩ := behind
    have short := shortCut (single (c.toNat / 16) (by omega)) digits
    simp [stringFrom,move,escapeRead,short]

theorem escapeShape (c : Char) : escape c = [c] ∨ (∃ d, escape c = ['\\',d]) ∨
    c.toNat < 0x20 ∧
      escape c = ['\\','u','0','0',hexDigit (c.toNat / 16),hexDigit (c.toNat % 16)] := by
  unfold escape
  split_ifs
  all_goals first
    | exact Or.inl rfl
    | exact Or.inr (Or.inl ⟨_,rfl⟩)
    | exact Or.inr (Or.inr ⟨by omega,rfl⟩)

theorem escapeCut {c : Char} (cut : Cut w (escape c)) (before : List Char) :
    stringFrom .strict .plain before w = .error .cutShort := by
  rcases escapeShape c with plain | ⟨d,named⟩ | ⟨control,coded⟩
  · rw [plain] at cut
    rw [cutSingle cut]
    rfl
  · rw [named] at cut
    exact namedCut cut before
  · rw [coded] at cut
    exact codedCut control cut before

theorem stringCut (cs : List Char) (before : List Char) (cut : Cut w (cs.flatMap escape ++ ['"'])) :
    stringFrom .strict .plain before w = .error .cutShort := by
  induction cs generalizing w before with
  | nil =>
    rw [cutSingle cut]
    rfl
  | cons c cs ih =>
    rw [List.flatMap_cons,List.append_assoc] at cut
    cases cutSplit cut with
    | inl first => exact escapeCut first before
    | inr behind =>
      obtain ⟨v,rfl,behind⟩ := behind
      obtain ⟨shown,_,reads⟩ := escapeReads .strict c
      rw [reads]
      exact ih _ behind

theorem quotedCut {s : String} (cut : Cut w (quoted s)) :
    w = [] ∨ ∃ v, w = '"'::v ∧ string .strict v = .error .cutShort := by
  cases cutCons cut with
  | inl empty => exact Or.inl empty
  | inr inside =>
    obtain ⟨v,same,behind⟩ := inside
    exact Or.inr ⟨v,same,stringCut s.toList [] behind⟩

theorem decimalCut {n : Nat} (cut : Cut w (decimal n)) :
    w = [] ∨ ∃ m, 0 < m ∧ m ≤ n ∧ w = decimal m := by
  induction n using decimal.induct generalizing w with
  | case1 n small =>
    rw [decimal,if_pos small] at cut
    exact Or.inl (cutSingle cut)
  | case2 n large ih =>
    rw [decimal,if_neg large] at cut
    cases cutSplit cut with
    | inl first =>
      cases ih first with
      | inl empty => exact Or.inl empty
      | inr numeral =>
        obtain ⟨m,positive,below,same⟩ := numeral
        exact Or.inr ⟨m,positive,by omega,same⟩
    | inr behind =>
      obtain ⟨v,rfl,last⟩ := behind
      rw [cutSingle last,List.append_nil]
      exact Or.inr ⟨n / 10,by omega,by omega,rfl⟩

/- Nearer to zero on the same side of it. A negative number does not come to zero itself. -/
def Toward (j i : Int) : Prop := 0 ≤ j ∧ j ≤ i ∨ i ≤ j ∧ j < 0

theorem integerCut {i : Int} (cut : Cut w (integerText i)) :
    w = [] ∨ w = ['-'] ∨ ∃ j, Toward j i ∧ w = integerText j := by
  unfold integerText at cut
  split_ifs at cut with negative
  · cases cutCons cut with
    | inl empty => exact Or.inl empty
    | inr inside =>
      obtain ⟨v,rfl,digits⟩ := inside
      cases decimalCut digits with
      | inl empty => exact Or.inr (Or.inl (by rw [empty]))
      | inr numeral =>
        obtain ⟨m,positive,below,rfl⟩ := numeral
        have minus : -(m : Int) < 0 := by omega
        refine Or.inr (Or.inr ⟨-m,Or.inr ⟨by omega,minus⟩,?_⟩)
        rw [integerText,if_pos minus,Int.natAbs_neg,Int.natAbs_natCast]
  · cases decimalCut cut with
    | inl empty => exact Or.inl empty
    | inr numeral =>
      obtain ⟨m,positive,below,rfl⟩ := numeral
      have plus : ¬ (m : Int) < 0 := by omega
      refine Or.inr (Or.inr ⟨m,Or.inl ⟨by omega,by omega⟩,?_⟩)
      rw [integerText,if_neg plus,Int.natAbs_natCast]

end Lexemes

def RunsOut {α : Type} (read : Reading (α × List Char)) : Prop :=
  read = .error .cutShort ∨ ∃ a, read = .ok (a,[])

namespace Form

variable {α β : Type} {form : Form α} {v : Value} {a : α} {w : List Char}

/- The text of the value is read as what it stands for, and a front of it runs out. -/
structure ReadsOut (form : Form α) (v : Value) (a : α) : Prop where
  reads : ∀ depth {rest}, Ends rest →
    form.read (v.render Layout.compact depth ++ rest) = .ok (a,rest)
  cut : ∀ depth {w}, Cut w (v.render Layout.compact depth) → RunsOut (form.read w)

theorem valueReadBack (agrees : form.Agrees) (lawful : v.Lawful .skimming)
    (back : form.ofValue? v = some a) (depth : Nat) {rest : List Char} (ends : Ends rest) :
    form.read (v.render Layout.compact depth ++ rest) = .ok (a,rest) := by
  have found := agrees compactBlank lawful depth noGap ends
  rw [List.nil_append,back] at found
  cases read : form.read (v.render Layout.compact depth ++ rest) with
  | error fault => rw [read] at found; cases found
  | ok pair => rw [read] at found; cases found; rfl

theorem integerReadsOut {f : Int → Option α} {i : Int} (agrees : (Form.integer.refine f).Agrees)
    (fits : f i = some a) (toward : ∀ j, Toward j i → ∃ b, f j = some b) :
    (Form.integer.refine f).ReadsOut (.integer i) a := by
  have reads : ∀ {j b}, f j = some b → ∀ {rest}, Ends rest →
      (Form.integer.refine f).read (integerText j ++ rest) = .ok (b,rest) := by
    intro j b fits rest ends
    have lawful : (Value.integer j).Lawful .skimming := nofun
    have found := valueReadBack agrees lawful fits 0 ends
    rwa [Value.render] at found
  constructor
  · intro depth rest ends
    rw [Value.render]
    exact reads fits ends
  · intro depth w cut
    rw [Value.render] at cut
    rcases integerCut cut with rfl | rfl | ⟨j,near,rfl⟩
    · exact Or.inl rfl
    · exact Or.inl rfl
    · obtain ⟨b,fits⟩ := toward j near
      have found := reads fits endsNil
      rw [List.append_nil] at found
      exact Or.inr ⟨b,found⟩

theorem closedReadsOut (agrees : form.Agrees) (lawful : v.Lawful .skimming)
    (back : form.ofValue? v = some a)
    (short : ∀ depth w, Cut w (v.render Layout.compact depth) → form.read w = .error .cutShort) :
    form.ReadsOut v a where
  reads depth _ ends := valueReadBack agrees lawful back depth ends
  cut depth w cut := Or.inl (short depth w cut)

theorem refineRunsOut (out : form.read w = .error .cutShort) (f : α → Option β) :
    (form.refine f).read w = .error .cutShort := by
  simp only [refine,out]
  rfl

section Strings

variable {s : String} {named : String → Option α}

theorem stringRunsOut {depth : Nat} (cut : Cut w ((Value.string s).render Layout.compact depth)) :
    Form.string.read w = .error .cutShort := by
  rw [Value.render] at cut
  rcases quotedCut cut with rfl | ⟨v,rfl,inside⟩
  · rfl
  · exact inside

theorem labelRunsOut {depth : Nat} (cut : Cut w ((Value.string s).render Layout.compact depth)) :
    (Form.label named).read w = .error .cutShort := by
  have out := refineRunsOut (stringRunsOut cut) named
  rw [Value.render] at cut
  rcases quotedCut cut with rfl | ⟨v,rfl,_⟩
  · rfl
  · exact out

theorem stringReadsOut (s : String) : Form.string.ReadsOut (.string s) s :=
  closedReadsOut stringAgrees (by trivial) rfl fun _ _ cut => stringRunsOut cut

theorem refinedStringReadsOut (name : named s = some a) :
    (Form.string.refine named).ReadsOut (.string s) a :=
  closedReadsOut (refineAgrees stringAgrees named) (by trivial) name
    fun _ _ cut => refineRunsOut (stringRunsOut cut) named

theorem labelReadsOut (name : named s = some a) : (Form.label named).ReadsOut (.string s) a :=
  closedReadsOut (labelAgrees named) (by trivial) name fun _ _ cut => labelRunsOut cut

end Strings

theorem boolRunsOut {b : Bool} {depth : Nat}
    (cut : Cut w ((Value.bool b).render Layout.compact depth)) :
    Form.bool.read w = .error .cutShort := by
  have opensTrue : Opens 't' := by decide
  have opensFalse : Opens 'f' := by decide
  cases b <;>
  · rw [Value.render] at cut
    rcases cutCons cut with rfl | ⟨v,rfl,letters⟩
    · rfl
    · have out := wordCut letters
      simp only [Form.bool,opensStays opensTrue,opensStays opensFalse,out]
      rfl

theorem boolReadsOut (b : Bool) : Form.bool.ReadsOut (.bool b) b :=
  closedReadsOut boolAgrees (by trivial) rfl fun _ _ cut => boolRunsOut cut

section Nullables

theorem notNullStarts {c : Char} (other : v ≠ .null) (starts : v.StartsWith c) : c ≠ 'n' := by
  intro letter
  subst letter
  cases v with
  | null => exact other rfl
  | _ => simp [Value.StartsWith,startsNumber] at starts

theorem nullableElse {c : Char} (opens : Opens c) (other : c ≠ 'n') (more : List Char) :
    form.nullable.read (c::more) = (form.read (c::more)).map fun (a,cs) => (some a,cs) := by
  simp only [Form.nullable,opensStays opens]
  split
  · rename_i letter
    exact absurd (List.cons.inj letter).1 other
  · rfl

theorem nullableEmpty (empty : form.read [] = .error .cutShort) :
    form.nullable.read [] = .error .cutShort := by
  simp only [Form.nullable,afterGap,List.dropWhile_nil,empty]
  rfl

theorem nullReadsOut (empty : form.read [] = .error .cutShort) :
    form.nullable.ReadsOut .null none := by
  have opens : Opens 'n' := by decide
  constructor
  · intro depth rest ends
    rw [Value.render]
    rfl
  · intro depth w cut
    left
    rw [Value.render] at cut
    rcases cutCons cut with rfl | ⟨v,rfl,letters⟩
    · exact nullableEmpty empty
    · have out := wordCut letters
      simp only [Form.nullable,opensStays opens,out]
      rfl

theorem someReadsOut (out : form.ReadsOut v a) (lawful : v.Lawful .skimming) (other : v ≠ .null)
    (empty : form.read [] = .error .cutShort) : form.nullable.ReadsOut v (some a) := by
  constructor
  · intro depth rest ends
    obtain ⟨c,more,text,starts⟩ := textStarts Layout.compact lawful depth
    have read := out.reads depth ends
    rw [text,List.cons_append] at read ⊢
    rw [nullableElse (startOpens starts) (notNullStarts other starts),read]
    rfl
  · intro depth w cut
    obtain ⟨c,more,text,starts⟩ := textStarts Layout.compact lawful depth
    have runs := out.cut depth cut
    rw [text] at cut
    rcases cutCons cut with rfl | ⟨v,rfl,_⟩
    · exact Or.inl (nullableEmpty empty)
    rw [nullableElse (startOpens starts) (notNullStarts other starts)]
    rcases runs with short | ⟨b,read⟩
    · rw [short]
      exact Or.inl rfl
    · rw [read]
      exact Or.inr ⟨some b,rfl⟩

theorem nullableReadsOut {write : α → Value} (out : ∀ a, form.ReadsOut (write a) a)
    (lawful : ∀ a, (write a).Lawful .skimming) (other : ∀ a, write a ≠ .null)
    (empty : form.read [] = .error .cutShort) (a : Option α) :
    form.nullable.ReadsOut (.ofOption write a) a := by
  cases a with
  | none => exact nullReadsOut empty
  | some a => exact someReadsOut (out a) (lawful a) (other a) empty

end Nullables

/- Where the text goes on behind a value, the cut is in the value and reading stops with it, or
it is further on. -/
theorem cutThen {next : α × List Char → Reading β} {after : List Char} (out : form.ReadsOut v a)
    (depth : Nat) (ends : Ends after) (cut : Cut w (v.render Layout.compact depth ++ after))
    (stops : ∀ b, next (b,[]) = .error .cutShort)
    (on : ∀ {left}, Cut left after → next (a,left) = .error .cutShort) :
    (form.read w >>= next) = .error .cutShort := by
  cases cutSplit cut with
  | inl inside =>
    rcases out.cut depth inside with short | ⟨b,read⟩
    · rw [short]
      rfl
    · rw [read]
      exact stops b
  | inr behind =>
    obtain ⟨left,rfl,behind⟩ := behind
    rw [out.reads depth (cutEnds ends behind)]
    exact on behind

section Lists

variable {write : α → Value} {as : List α}

theorem cutOpens (lawful : v.Lawful .skimming) (depth : Nat) {after : List Char}
    (cut : Cut w (v.render Layout.compact depth ++ after)) :
    w = [] ∨ ∃ c more, w = c::more ∧ Opens c := by
  obtain ⟨c,more,text,opens⟩ := textOpens Layout.compact lawful depth
  rw [text,List.cons_append] at cut
  rcases cutCons cut with empty | ⟨u,same,_⟩
  · exact Or.inl empty
  · exact Or.inr ⟨c,u,same,opens⟩

theorem moreOpened {c : Char} (opens : Opens c) (bound : Nat) (more : List Char) :
    readMore form.read (bound + 1) (','::c::more) = (do
      let (a,cs) ← form.read (c::more)
      let (as,cs) ← readMore form.read bound cs
      .ok (a::as,cs)) := by
  simp only [readMore,commaStays,afterComma,opensStays opens,if_neg opens.2.1]
  rfl

theorem moreEmpty (bound : Nat) : readMore form.read bound [] = .error .cutShort := by
  cases bound <;> rfl

theorem itemsEnd (depth : Nat) (vs : List Value) :
    Ends (renderItems Layout.compact depth vs ++ [']']) :=
  endsItems (endsMark (.inr (.inl rfl)) []) depth vs

theorem moreCut (out : ∀ a, form.ReadsOut (write a) a)
    (lawful : ∀ a, (write a).Lawful .skimming) (depth bound : Nat)
    (cut : Cut w (renderItems Layout.compact depth (as.map write) ++ [']'])) :
    readMore form.read bound w = .error .cutShort := by
  induction as generalizing w bound with
  | nil =>
    rw [cutSingle cut]
    cases bound <;> rfl
  | cons a as ih =>
    cases bound with
    | zero => rfl
    | succ bound =>
      have text : renderItems Layout.compact depth ((a::as).map write) ++ [']'] =
          ','::((write a).render Layout.compact depth ++
            (renderItems Layout.compact depth (as.map write) ++ [']'])) := by
        simp [renderItems,Layout.compact]
      rw [text] at cut
      rcases cutCons cut with rfl | ⟨u,rfl,item⟩
      · rfl
      rcases cutOpens (lawful a) depth item with rfl | ⟨c,more,rfl,opens⟩
      · rfl
      rw [moreOpened opens]
      refine cutThen (out a) depth (itemsEnd depth (as.map write)) item ?_ ?_
      · intro b
        dsimp only
        rw [moreEmpty]
        rfl
      · intro left behind
        dsimp only
        rw [ih bound behind]
        rfl

theorem listOpened {c : Char} (opens : Opens c) (more : List Char) :
    form.list.read ('['::c::more) = (do
      let (a,cs) ← form.read (c::more)
      let (as,cs) ← readMore form.read (cs.length + 1) cs
      .ok (a::as,cs)) := by
  have bracket : afterGap ('['::c::more) = '['::c::more := rfl
  simp only [Form.list,bracket,opensStays opens]
  split
  · contradiction
  · rename_i closed
    exact absurd (List.cons.inj closed).1 opens.2.1
  · rfl

theorem listRunsOut (out : ∀ a, form.ReadsOut (write a) a)
    (lawful : ∀ a, (write a).Lawful .skimming) (depth : Nat)
    (cut : Cut w ((Value.array (as.map write)).render Layout.compact depth)) :
    form.list.read w = .error .cutShort := by
  cases as with
  | nil =>
    rw [List.map_nil,Value.render] at cut
    rcases cutCons cut with rfl | ⟨u,rfl,close⟩
    · rfl
    · rw [cutSingle close]
      rfl
  | cons a as =>
    have text : (Value.array ((a::as).map write)).render Layout.compact depth =
        '['::((write a).render Layout.compact (depth + 1) ++
          (renderItems Layout.compact (depth + 1) (as.map write) ++ [']'])) := by
      simp [Value.render,Layout.compact]
    rw [text] at cut
    rcases cutCons cut with rfl | ⟨u,rfl,item⟩
    · rfl
    rcases cutOpens (lawful a) (depth + 1) item with rfl | ⟨c,more,rfl,opens⟩
    · rfl
    rw [listOpened opens]
    refine cutThen (out a) (depth + 1) (itemsEnd (depth + 1) (as.map write)) item ?_ ?_
    · intro b
      rfl
    · intro left behind
      dsimp only
      rw [moreCut out lawful (depth + 1) _ behind]
      rfl

end Lists

section Records

variable {δ : Type} {slots : List (Slot δ)} {d : δ}

theorem slotReadsOut {name : String} {get : δ → Option α} {set : α → δ → δ}
    (out : form.ReadsOut v a) : (Slot.of name get set form).form.ReadsOut v (set a) := by
  constructor
  · intro depth rest ends
    simp only [Slot.of,refine,out.reads depth ends]
    rfl
  · intro depth w cut
    rcases out.cut depth cut with short | ⟨b,read⟩
    · exact Or.inl (refineRunsOut short _)
    · right
      simp only [Slot.of,refine,read]
      exact ⟨set b,rfl⟩

inductive Fills (slots : List (Slot δ)) : δ → List (String × Value) → Prop where
  | none (d : δ) : Fills slots d []
  | member {d : δ} {k : String} {v : Value} {ms : List (String × Value)} {set : δ → δ}
      (slot : Slot δ) : (slots.find? fun slot => slot.name = k) = some slot →
      slot.filled d = false → slot.form.ReadsOut v set → Fills slots (set d) ms →
      Fills slots d ((k,v)::ms)

theorem membersEmpty (bound : Nat) : readMembers slots bound d [] = .error .cutShort := by
  cases bound <;> rfl

theorem keyCut {k : String} {after : List Char} (cut : Cut w (quoted k ++ after)) :
    key .strict w = .error .cutShort ∨ ∃ left, key .strict w = .ok (k,left) ∧ Cut left after := by
  cases cutSplit cut with
  | inl inside =>
    rcases quotedCut inside with rfl | ⟨v,rfl,short⟩
    · exact Or.inl rfl
    · exact Or.inl short
  | inr behind =>
    obtain ⟨left,rfl,behind⟩ := behind
    obtain ⟨k',same,reads⟩ := keyReads .strict k
    obtain rfl := same rfl
    exact Or.inr ⟨left,reads [] left rfl,behind⟩

theorem memberOpened {next : δ × List Char → Reading β} {k : String} {slot : Slot δ}
    (found : (slots.find? fun slot => slot.name = k) = some slot) (free : slot.filled d = false)
    (more : List Char) : (readMember slots k d (':'::more) >>= next) =
      (slot.form.read more >>= fun filled => next (filled.1 d,filled.2)) := by
  have opened : readMember slots k d (':'::more) =
      (slot.form.read more >>= fun filled => .ok (filled.1 d,filled.2)) := by
    simp only [readMember,found,free,Bool.false_eq_true,↓reduceIte,colonRead]
    rfl
  rw [opened]
  cases slot.form.read more <;> rfl

theorem memberCut {next : δ × List Char → Reading β} {k : String} {set : δ → δ}
    {after : List Char} {slot : Slot δ}
    (found : (slots.find? fun slot => slot.name = k) = some slot) (free : slot.filled d = false)
    (out : slot.form.ReadsOut v set) (depth : Nat) (ends : Ends after)
    (cut : Cut w (':'::(v.render Layout.compact depth ++ after)))
    (stops : ∀ d, next (d,[]) = .error .cutShort)
    (on : ∀ {left}, Cut left after → next (set d,left) = .error .cutShort) :
    (readMember slots k d w >>= next) = .error .cutShort := by
  rcases cutCons cut with rfl | ⟨u,rfl,value⟩
  · simp only [readMember,found,free,Bool.false_eq_true,↓reduceIte]
    rfl
  · rw [memberOpened found free]
    exact cutThen out depth ends value (fun set => stops (set d)) on

theorem membersEnd (depth : Nat) (ms : List (String × Value)) :
    Ends (renderMembers Layout.compact depth ms ++ ['\x7d']) :=
  endsMembers (endsMark (.inr (.inr rfl)) []) depth ms

theorem membersCut {ms : List (String × Value)} (fills : Fills slots d ms) (depth bound : Nat)
    (cut : Cut w (renderMembers Layout.compact depth ms ++ ['\x7d'])) :
    readMembers slots bound d w = .error .cutShort := by
  induction fills generalizing w bound with
  | none d =>
    rw [cutSingle cut]
    exact membersEmpty bound
  | @member d k v ms set slot found free out fills ih =>
    cases bound with
    | zero => rfl
    | succ bound =>
      have text : renderMembers Layout.compact depth ((k,v)::ms) ++ ['\x7d'] =
          ','::(quoted k ++ ':'::(v.render Layout.compact depth ++
            (renderMembers Layout.compact depth ms ++ ['\x7d']))) := by
        simp [renderMembers,Layout.compact]
      rw [text] at cut
      rcases cutCons cut with rfl | ⟨u,rfl,member⟩
      · rfl
      simp only [readMembers,commaStays]
      rcases keyCut member with short | ⟨left,read,behind⟩
      · rw [short]
        rfl
      rw [read]
      exact memberCut found free out depth (membersEnd depth ms) behind
        (fun d => membersEmpty bound) (fun behind => ih bound behind)

theorem recordOpened {finish : δ → Option α} {more : List Char}
    (short : (do
      let (k,cs) ← key .strict ('"'::more)
      let (d,cs) ← readMember slots k d cs
      readMembers slots (cs.length + 1) d cs) = .error .cutShort) :
    (Form.record slots d finish).read ('\x7b':: '"'::more) = .error .cutShort := by
  obtain ⟨finished,opened⟩ : ∃ finished : δ × List Char → Reading (α × List Char),
      (Form.record slots d finish).read ('\x7b':: '"'::more) = ((do
        let (k,cs) ← key .strict ('"'::more)
        let (d,cs) ← readMember slots k d cs
        readMembers slots (cs.length + 1) d cs) >>= finished) := ⟨_,rfl⟩
  rw [opened,short]
  rfl

theorem recordRunsOut {finish : δ → Option α} {k : String} {ms : List (String × Value)}
    (fills : Fills slots d ((k,v)::ms)) (depth : Nat)
    (cut : Cut w ((Value.object ((k,v)::ms)).render Layout.compact depth)) :
    (Form.record slots d finish).read w = .error .cutShort := by
  have text : (Value.object ((k,v)::ms)).render Layout.compact depth =
      '\x7b'::(quoted k ++ ':'::(v.render Layout.compact (depth + 1) ++
        (renderMembers Layout.compact (depth + 1) ms ++ ['\x7d']))) := by
    simp [Value.render,Layout.compact]
  rw [text] at cut
  rcases cutCons cut with rfl | ⟨u,rfl,member⟩
  · rfl
  rcases cutCons member with rfl | ⟨more,rfl,_⟩
  · rfl
  refine recordOpened ?_
  rcases keyCut member with short | ⟨left,read,behind⟩
  · rw [short]
    rfl
  rw [read]
  cases fills with
  | member slot found free out fills =>
    exact memberCut found free out (depth + 1) (membersEnd (depth + 1) ms) behind
      (fun d => membersEmpty _) (fun behind => membersCut fills (depth + 1) _ behind)

end Records

end Form
end PaneWatch.Json
