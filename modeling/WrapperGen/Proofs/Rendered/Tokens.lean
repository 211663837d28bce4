import WrapperGen.Proofs.Rendered.Phrases
import WrapperGen.Proofs.Unplaced.Texts
/-!
# Tokens in front of a text

What the lexer reads at the beginning of a text: a word, a lifetime, a number or a quoted word that
is read where nothing comes after it is also read in front of a character that cannot go on with it
(`Token.IsWord.leaf?_eq`), and a sign is read in front of anything (`leaf?_sign`).
-/

namespace WrapperGen.Source

open Text Lexer

/-! ## Characters -/

/-- The characters whose gaps are closed. -/
def isTight (c : Char) : Bool := "<>,:&".toList.contains c

/-- The characters that may come right after a word. -/
def isStop (c : Char) : Bool := isTight c || c == ' ' || c == ')' || c == ']'

/-- The signs that types are written with. -/
def isSign (c : Char) : Bool := isTight c || "*-=+?!;".toList.contains c

/-- Nothing comes next, or what ends a word. -/
def stops (cs : List Char) : Prop := ∀ c ∈ cs.head?, isStop c

theorem isTight_cases {c : Char} (h : isTight c) : c = '<' ∨ c = '>' ∨ c = ',' ∨ c = ':' ∨ c = '&' := by
  simpa [isTight] using h

theorem isStop_cases {c : Char} (h : isStop c) : c = ' ' ∨ c = ')' ∨ c = ']' ∨ c = '<' ∨ c = '>' ∨
    c = ',' ∨ c = ':' ∨ c = '&' := by
  simp only [isStop, Bool.or_eq_true, beq_iff_eq] at h
  rcases h with ((h | h) | h) | h
  · exact .inr (.inr (.inr (isTight_cases h)))
  · exact .inl h
  · exact .inr (.inl h)
  · exact .inr (.inr (.inl h))

/-- What ends a word is no part of one, nor of a number. -/
theorem isStop_no {c : Char} (h : isStop c) : isIdentStart c = false ∧ isIdentContinue c = false ∧
    c.isDigit = false ∧ digitValue? c = none := by
  rcases isStop_cases h with rfl | rfl | rfl | rfl | rfl | rfl | rfl | rfl <;> decide

namespace Lexer

variable {cs rest : List Char}

/-! ## Words -/

theorem dropWhile_stops (h : stops rest) : rest.dropWhile isIdentContinue = rest := by
  cases rest with
  | nil => rfl
  | cons c rest => rw [List.dropWhile_cons_of_neg (by simp [(isStop_no (h c rfl)).2.1])]

theorem dropWhile_append (h : stops rest) (cs : List Char) :
    (cs ++ rest).dropWhile isIdentContinue = cs.dropWhile isIdentContinue ++ rest := by
  induction cs with
  | nil => exact dropWhile_stops h
  | cons c cs ih =>
    rw [List.cons_append, List.dropWhile_cons, List.dropWhile_cons]
    split
    · exact ih
    · rfl

/-- A reader of characters that goes no further where nothing comes or what ends a word. -/
def Local (f : List Char → Option (List Char)) : Prop :=
  ∀ cs rest, stops rest → f (cs ++ rest) = (f cs).map (· ++ rest)

theorem local_ident? : Local ident? := by
  intro cs rest h
  cases cs with
  | nil =>
    cases rest with
    | nil => rfl
    | cons c rest =>
      change (if isIdentStart c then _ else _) = _
      rw [if_neg (by simp [(isStop_no (h c rfl)).1])]
      rfl
  | cons c cs =>
    change (if isIdentStart c then some ((cs ++ rest).dropWhile isIdentContinue) else none) =
      (if isIdentStart c then some (cs.dropWhile isIdentContinue) else none).map (· ++ rest)
    rw [dropWhile_append h]
    split <;> rfl

/-! ## Numbers -/

theorem local_endNumber : Local endNumber := by
  intro cs rest h
  cases cs with
  | nil =>
    cases rest with
    | nil => rfl
    | cons c rest =>
      obtain ⟨hstart, hcontinue, -⟩ := isStop_no (h c rfl)
      simp [endNumber, hstart, hcontinue]
  | cons c cs =>
    have hident := local_ident? (c :: cs) rest h
    unfold endNumber
    rw [List.cons_append] at hident ⊢
    dsimp only
    rw [hident]
    split
    · rfl
    · split <;> rfl

/-- What ends a word has no part in a number with an exponent or a point. -/
theorem isStop_float {c : Char} (h : isStop c) : c ≠ '+' ∧ c ≠ '-' ∧ c ≠ '_' ∧ c ≠ '.' ∧ c ≠ 'e' ∧
    c ≠ 'E' ∧ c.isDigit = false := by
  rcases isStop_cases h with rfl | rfl | rfl | rfl | rfl | rfl | rfl | rfl <;> decide

theorem exponent_append (h : stops rest) (signed digits : Bool) (cs : List Char) :
    exponent signed digits (cs ++ rest) =
      (exponent signed digits cs).map fun r => (r.1 ++ rest, r.2) := by
  induction cs generalizing signed digits with
  | nil =>
    cases rest with
    | nil => simp [exponent]
    | cons c rest =>
      obtain ⟨hplus, hminus, hbar, -, -, -, hdigit⟩ := isStop_float (h c rfl)
      simp [exponent, hplus, hminus, hbar, hdigit]
  | cons c cs ih =>
    rw [List.cons_append]
    unfold exponent
    split
    · split
      · rfl
      · split
        · rfl
        · exact ih true digits
    · split
      · exact ih signed true
      · split
        · exact ih signed digits
        · rfl

theorem floatTail_append (h : stops rest) (dot : Bool) (cs : List Char) :
    floatTail dot (cs ++ rest) = (floatTail dot cs).map (· ++ rest) := by
  induction cs generalizing dot with
  | nil =>
    cases rest with
    | nil => cases dot <;> rfl
    | cons c rest =>
      obtain ⟨-, -, hbar, hpoint, he, hE, hdigit⟩ := isStop_float (h c rfl)
      cases dot <;> simp [floatTail, hbar, hpoint, he, hE, hdigit]
  | cons c cs ih =>
    rw [List.cons_append]
    unfold floatTail
    split
    · exact ih dot
    · split
      · cases cs with
        | nil =>
          cases rest with
          | nil => rfl
          | cons d rest =>
            have hd : (d == '.' || isIdentStart d) = false := by
              simp [(isStop_no (h d rfl)).1, (isStop_float (h d rfl)).2.2.2.1]
            change (if (d == '.' || isIdentStart d) = true then none else floatTail true (d :: rest)) =
              some (d :: rest)
            rw [if_neg (by simp [hd])]
            exact ih true
        | cons d cs =>
          change (if (d == '.' || isIdentStart d) = true then none
            else floatTail true (d :: cs ++ rest)) = _
          rw [ih true]
          dsimp only
          split <;> rfl
      · split
        · rw [exponent_append h]
          cases exponent false false cs with
          | none => cases dot <;> rfl
          | some r =>
            obtain ⟨rs, digits⟩ := r
            cases digits <;> cases dot <;> rfl
        · cases dot <;> rfl

theorem digitsIn_append (h : stops rest) (base : Nat) (empty : Bool) (cs : List Char) :
    digitsIn base empty (cs ++ rest) = (digitsIn base empty cs).map (· ++ rest) := by
  induction cs generalizing empty with
  | nil =>
    cases rest with
    | nil => cases empty <;> rfl
    | cons c rest =>
      obtain ⟨-, -, hdigit, hvalue⟩ := isStop_no (h c rfl)
      have hbar := (isStop_float (h c rfl)).2.2.1
      cases empty <;> simp [digitsIn, digitIn?, hdigit, hvalue, hbar]
  | cons c cs ih =>
    rw [List.cons_append]
    unfold digitsIn
    split
    · exact ih false
    · split
      · rfl
      · split
        · split
          · rfl
          · exact ih empty
        · cases empty <;> rfl

theorem local_float? : Local float? := by
  intro cs rest h
  cases cs with
  | nil =>
    cases rest with
    | nil => rfl
    | cons c rest =>
      change (if c.isDigit then _ else none) = none
      rw [if_neg (by simp [(isStop_no (h c rfl)).2.2.1])]
  | cons c cs =>
    change (if c.isDigit then (floatTail false (cs ++ rest)).bind endNumber else none) =
      (if c.isDigit then (floatTail false cs).bind endNumber else none).map (· ++ rest)
    rw [floatTail_append h]
    split
    · cases floatTail false cs with
      | none => rfl
      | some rs => exact local_endNumber rs rest h
    · rfl

/-- The prefix of a base is read as such, as what ends a word is none of its letters. -/
theorem startsWith_base {lead : String} {c d : Char} (hlead : lead.toList = [c, d])
    (hc : isStop c = false) (hd : isStop d = false) (h : stops rest) (cs : List Char) :
    startsWith lead (cs ++ rest) = startsWith lead cs ∧
      (startsWith lead cs = true → ∃ ds, cs = c :: d :: ds) := by
  have hne {e : Char} {ds : List Char} (he : isStop e = false) (hds : stops ds) :
      ds.head? ≠ some e := by
    intro heq
    rw [hds e heq] at he
    cases he
  unfold startsWith
  rw [hlead]
  match cs with
  | [] =>
    cases rest with
    | nil => exact ⟨rfl, nofun⟩
    | cons e rest =>
      have : c ≠ e := fun heq => hne hc h (congrArg some heq.symm)
      simp [List.isPrefixOf, this]
  | [e] =>
    cases rest with
    | nil => exact ⟨rfl, by simp⟩
    | cons e' rest =>
      have : d ≠ e' := fun heq => hne hd h (congrArg some heq.symm)
      simp [List.isPrefixOf, this]
  | e :: e' :: cs =>
    simp only [List.isPrefixOf, List.cons_append, Bool.and_true, Bool.and_eq_true, beq_iff_eq,
      true_and]
    rintro ⟨rfl, rfl⟩
    exact ⟨cs, rfl⟩

theorem local_int? : Local int? := by
  intro cs rest h
  have hnumber (base : Nat) (cs : List Char) :
      (digitsIn base true (cs ++ rest)).bind endNumber =
        ((digitsIn base true cs).bind endNumber).map (· ++ rest) := by
    rw [digitsIn_append h]
    cases digitsIn base true cs with
    | none => rfl
    | some rs => exact local_endNumber rs rest h
  have hbase (base : Nat) {lead : String} {c d : Char} (hlead : lead.toList = [c, d])
      (hc : isStop c = false) (hd : isStop d = false) (hstart : startsWith lead cs = true) :
      (digitsIn base true ((cs ++ rest).drop 2)).bind endNumber =
        ((digitsIn base true (cs.drop 2)).bind endNumber).map (· ++ rest) := by
    obtain ⟨ds, rfl⟩ := (startsWith_base hlead hc hd h cs).2 hstart
    exact hnumber base ds
  have hx := startsWith_base (show "0x".toList = ['0', 'x'] from rfl) rfl rfl h cs
  have ho := startsWith_base (show "0o".toList = ['0', 'o'] from rfl) rfl rfl h cs
  have hb := startsWith_base (show "0b".toList = ['0', 'b'] from rfl) rfl rfl h cs
  unfold int?
  simp only [hx.1, ho.1, hb.1]
  split
  · exact hbase 16 (show "0x".toList = ['0', 'x'] from rfl) rfl rfl ‹_›
  · split
    · exact hbase 8 rfl rfl rfl ‹_›
    · split
      · exact hbase 2 rfl rfl rfl ‹_›
      · exact hnumber 10 cs

/-! ## Literals -/

theorem after?_none {lead : String} {l : Char} {ls : List Char} (hlead : lead.toList = l :: ls)
    {c : Char} (hc : c ≠ l) (cs : List Char) : after? lead (c :: cs) = none := by
  unfold after?
  rw [hlead, if_neg]
  simp [hc.symm]

theorem textLiteral?_none {lead : String} {rules : TextRules}
    (hquote : after? (lead ++ "\"") cs = none)
    (hraw : ∀ r, after? (lead ++ "r") cs = some r → rawText? rules r = none) :
    textLiteral? lead rules cs = none := by
  unfold textLiteral?
  rw [hquote]
  cases h : after? (lead ++ "r") cs with
  | none => rfl
  | some r => exact hraw r h

/-- What begins neither as a text nor as a character is a number if anything. -/
theorem literal?_number {c : Char} (hc : c ≠ '"' ∧ c ≠ 'r' ∧ c ≠ 'b' ∧ c ≠ 'c' ∧ c ≠ '\'')
    (cs : List Char) : literal? (c :: cs) = (float? (c :: cs) <|> int? (c :: cs)) := by
  obtain ⟨hquote, hr, hb, hcc, htick⟩ := hc
  have htext {lead : String} {rules : TextRules} {l l' : Char} {ls ls' : List Char}
      (hlead : (lead ++ "\"").toList = l :: ls) (hlead' : (lead ++ "r").toList = l' :: ls')
      (hl : c ≠ l) (hl' : c ≠ l') : textLiteral? lead rules (c :: cs) = none := by
    refine textLiteral?_none (after?_none hlead hl cs) fun r hr => ?_
    rw [after?_none hlead' hl' cs] at hr
    cases hr
  have hchar {lead : String} {rules : TextRules} {l : Char} {ls : List Char}
      (hlead : lead.toList = l :: ls) (hl : c ≠ l) : charLiteral? lead rules (c :: cs) = none := by
    unfold charLiteral?
    rw [after?_none hlead hl cs]
    rfl
  unfold literal?
  rw [htext rfl rfl hquote hr, htext rfl rfl hb hb, htext rfl rfl hcc hcc, hchar rfl hb,
    hchar rfl htick]
  rfl

theorem isDigit_front {c : Char} (h : c.isDigit) :
    c ≠ '"' ∧ c ≠ 'r' ∧ c ≠ 'b' ∧ c ≠ 'c' ∧ c ≠ '\'' := by
  refine ⟨?_, ?_, ?_, ?_, ?_⟩
  all_goals
    rintro rfl
    cases h

theorem literal?_of_isNumberText {text : String} (h : isNumberText text) (hstop : stops rest) :
    literal? (text.toList ++ rest) = some rest := by
  unfold isNumberText at h
  simp only [Bool.and_eq_true, beq_iff_eq] at h
  obtain ⟨⟨hfront, -⟩, hread⟩ := h
  cases htext : text.toList with
  | nil => simp [htext] at hfront
  | cons c cs =>
    rw [htext] at hfront hread
    have hc := isDigit_front (by simpa using hfront)
    rw [literal?_number hc] at hread
    rw [List.cons_append, literal?_number hc, ← List.cons_append, local_float? _ _ hstop,
      local_int? _ _ hstop]
    cases hfloat : float? (c :: cs) with
    | some rs =>
      rw [hfloat] at hread
      cases hread
      rfl
    | none =>
      rw [hfloat] at hread
      change int? (c :: cs) = some [] at hread
      rw [hread]
      rfl

/-! ## Words that are no literals -/

/-- A quote, an apostrophe or a hash sign, which are in no plain word and end none. -/
def isMark (c : Char) : Bool := c == '"' || c == '\'' || c == '#'

theorem isMark_no {c : Char} (h : isMark c) :
    isIdentStart c = false ∧ isIdentContinue c = false ∧ isStop c = false := by
  simp only [isMark, Bool.or_eq_true, beq_iff_eq] at h
  rcases h with (rfl | rfl) | rfl <;> decide

/-- Behind the letters of a plain word, or of a part of it, there is no mark. -/
theorem noMark (letters : List Char) {word tail : List Char} {m : Char}
    (hword : ∀ c ∈ word, isIdentStart c ∨ isIdentContinue c) (hstop : stops rest) (hm : isMark m)
    (hletters : ∀ c ∈ letters, isStop c = false) : word ++ rest ≠ letters ++ m :: tail := by
  obtain ⟨hstart, hcontinue, hno⟩ := isMark_no hm
  intro heq
  rcases List.append_eq_append_iff.1 heq with ⟨ls, rfl, hrest⟩ | ⟨ws, rfl, htail⟩
  · cases ls with
    | nil =>
      have := hstop m (by rw [hrest]; rfl)
      rw [hno] at this
      cases this
    | cons l ls =>
      have := hstop l (by rw [hrest]; rfl)
      rw [hletters l (by simp)] at this
      cases this
  · cases ws with
    | nil =>
      have := hstop m (by rw [← List.nil_append rest, ← htail]; rfl)
      rw [hno] at this
      cases this
    | cons w ws =>
      obtain ⟨rfl, -⟩ := List.cons.inj htail
      rcases hword m (by simp) with h | h
      · rw [hstart] at h
        cases h
      · rw [hcontinue] at h
        cases h

theorem ident?_front {word : List Char} (h : ident? word = some rest) :
    ∃ c cs, word = c :: cs ∧ isIdentStart c := by
  unfold ident? at h
  split at h
  · split at h
    · exact ⟨_, _, rfl, ‹_›⟩
    · cases h
  · cases h

/-- A word as it stands, or a raw one. -/
theorem anyIdent?_cases {word : List Char} (h : anyIdent? word = some []) :
    ident? word = some [] ∨ ∃ inner, word = 'r' :: '#' :: inner ∧ ident? inner = some [] ∧
      noRawForm.contains (String.ofList inner) = false := by
  unfold anyIdent? at h
  split at h
  · exact .inl h
  · rename_i inner hinner
    right
    obtain ⟨rs, hident, h⟩ := Option.bind_eq_some_iff.1 h
    split at h
    · cases h
    · rename_i hraw
      cases h
      refine ⟨inner, after?_some hinner, hident, ?_⟩
      simpa [consumed] using hraw

section Words

variable {word : List Char} (hword : anyIdent? word = some [])

include hword

theorem anyIdent?_front : ∃ c cs, word = c :: cs ∧ isIdentStart c := by
  rcases anyIdent?_cases hword with hident | ⟨inner, rfl, -, -⟩
  · exact ident?_front hident
  · exact ⟨'r', _, rfl, by decide⟩

theorem literalLeads_none (hstop : stops rest) :
    literalLeads.any (startsWith · (word ++ rest)) = false := by
  rw [List.any_eq_false]
  intro lead hlead hstart
  obtain ⟨tail, htail⟩ := startsWith_iff.1 hstart
  rcases anyIdent?_cases hword with hident | ⟨inner, rfl, hident, -⟩
  · have hno (letters : List Char) {tail : List Char} {m : Char} (hm : isMark m)
        (hletters : letters.all (!isStop ·)) (heq : word ++ rest = letters ++ m :: tail) : False :=
      noMark letters (ident?_chars hident).2 hstop hm (by simpa using hletters) heq
    simp only [literalLeads, List.mem_cons, List.not_mem_nil, or_false] at hlead
    rcases hlead with rfl | rfl | rfl | rfl | rfl | rfl | rfl | rfl | rfl | rfl
    all_goals first
      | exact hno ['r'] rfl rfl htail
      | exact hno ['b'] rfl rfl htail
      | exact hno ['c'] rfl rfl htail
      | exact hno ['b', 'r'] rfl rfl htail
      | exact hno ['c', 'r'] rfl rfl htail
  · obtain ⟨c, cs, rfl, hc⟩ := ident?_front hident
    obtain ⟨hquote, hhash⟩ : c ≠ '"' ∧ c ≠ '#' := by
      constructor
      all_goals
        rintro rfl
        cases hc
    simp only [literalLeads, List.mem_cons, List.not_mem_nil, or_false] at hlead
    rcases hlead with rfl | rfl | rfl | rfl | rfl | rfl | rfl | rfl | rfl | rfl
    all_goals simp [hquote, hhash] at htail

theorem anyIdent?_append (hstop : stops rest) : anyIdent? (word ++ rest) = some rest := by
  rcases anyIdent?_cases hword with hident | ⟨inner, rfl, hident, hraw⟩
  · have hplain : after? "r#" (word ++ rest) = none := by
      cases hafter : after? "r#" (word ++ rest) with
      | none => rfl
      | some r =>
        have htail := after?_some hafter
        have hletter : ∀ c ∈ ['r'], isStop c = false := List.forall_mem_singleton.2 rfl
        exact (noMark ['r'] (ident?_chars hident).2 hstop rfl hletter htail).elim
    unfold anyIdent?
    rw [hplain, local_ident? _ _ hstop, hident]
    rfl
  · change (do
      let rs ← ident? (inner ++ rest)
      if noRawForm.contains (String.ofList (consumed (inner ++ rest) rs)) then none else some rs) = _
    rw [local_ident? _ _ hstop, hident]
    simpa [consumed] using hraw

/-- No apostrophe comes after the first character of a word, as after the one of a literal. -/
theorem anyIdent?_noTick (hstop : stops rest) (r : List Char) : (word ++ rest).tail ≠ '\'' :: r := by
  obtain ⟨c, cs, rfl, hc⟩ := anyIdent?_front hword
  intro heq
  rcases anyIdent?_cases hword with hident | ⟨inner, hinner, -, -⟩
  · have hno : isStop c = false := by
      cases hstopped : isStop c with
      | false => rfl
      | true => rw [(isStop_no hstopped).1] at hc; cases hc
    have hall : c :: cs ++ rest = [c] ++ '\'' :: r := congrArg (c :: ·) heq
    exact noMark _ (ident?_chars hident).2 hstop rfl (by simpa using hno) hall
  · obtain ⟨rfl, rfl⟩ := List.cons.inj hinner
    cases heq

end Words

/-- Behind hash signs or none a raw text begins with its quote. -/
theorem rawText?_none {rules : TextRules} (hquote : ∀ r, cs ≠ '"' :: r)
    (hone : ∀ r, cs ≠ '#' :: '"' :: r) (htwo : ∀ r, cs ≠ '#' :: '#' :: r) :
    rawText? rules cs = none := by
  match cs with
  | [] => rfl
  | c :: r =>
    have hc : c ≠ '"' := fun h => hquote r (by rw [h])
    by_cases hhash : c = '#'
    · subst hhash
      match r with
      | [] => rfl
      | d :: r =>
        have hd : d ≠ '"' := fun h => hone r (by rw [h])
        have hd' : d ≠ '#' := fun h => htwo r (by rw [h])
        simp [rawText?, hd, hd']
    · simp [rawText?, hhash]

theorem after?_of_ne {lead : String} (h : ∀ r, cs ≠ lead.toList ++ r) : after? lead cs = none := by
  cases hafter : after? lead cs with
  | none => rfl
  | some r => exact absurd (after?_some hafter) (h r)

theorem number_none {c : Char} (hdigit : c.isDigit = false) (cs : List Char) :
    float? (c :: cs) = none ∧ int? (c :: cs) = none := by
  have hzero : c ≠ '0' := by
    rintro rfl
    cases hdigit
  have hno {lead : String} {d : Char} (h : lead.toList = ['0', d]) :
      startsWith lead (c :: cs) = false := by
    rw [startsWith, h]
    simp [List.isPrefixOf, hzero.symm]
  have hvalue : (digitIn? 10 c).isSome = false := by
    unfold digitIn? digitValue?
    rw [hdigit]
    split
    · contradiction
    · split
      · simp
      · split
        · simp
        · rfl
  refine ⟨if_neg (by simp [hdigit]), ?_⟩
  unfold int?
  rw [hno rfl, hno rfl, hno rfl]
  simp [digitsIn, hvalue, hdigit]

/-- What begins as a word and as no literal is none. -/
theorem literal?_word {c : Char} (hc : isIdentStart c)
    (hleads : literalLeads.any (startsWith · (c :: cs)) = false) : literal? (c :: cs) = none := by
  have hlead (lead : String) (h : lead ∈ literalLeads) (r : List Char) : c :: cs ≠ lead.toList ++ r :=
    fun heq => List.any_eq_false.1 hleads lead h (startsWith_iff.2 ⟨r, heq⟩)
  have hdigit : c.isDigit = false := not_isDigit hc
  obtain ⟨hquote, htick⟩ : c ≠ '"' ∧ c ≠ '\'' := by
    constructor
    all_goals
      rintro rfl
      cases hc
  have hstr : textLiteral? "" .str (c :: cs) = none := by
    refine textLiteral?_none (after?_none rfl hquote cs) fun r hr => ?_
    have hr := after?_some hr
    refine rawText?_none ?_ ?_ ?_
    all_goals
      rintro r rfl
      first
        | exact hlead "r\"" (by decide) r hr
        | exact hlead "r#\"" (by decide) r hr
        | exact hlead "r##" (by decide) r hr
  have hbytes : textLiteral? "b" .byteStr (c :: cs) = none := by
    refine textLiteral?_none (after?_of_ne (hlead "b\"" (by decide))) fun r hr => ?_
    have hr := after?_some hr
    refine rawText?_none ?_ ?_ ?_
    all_goals
      rintro r rfl
      first
        | exact hlead "br\"" (by decide) _ hr
        | exact hlead "br#" (by decide) _ hr
  have hzero : textLiteral? "c" .cStr (c :: cs) = none := by
    refine textLiteral?_none (after?_of_ne (hlead "c\"" (by decide))) fun r hr => ?_
    have hr := after?_some hr
    refine rawText?_none ?_ ?_ ?_
    all_goals
      rintro r rfl
      first
        | exact hlead "cr\"" (by decide) _ hr
        | exact hlead "cr#" (by decide) _ hr
  have hbyte : charLiteral? "b'" .byteStr (c :: cs) = none := by
    unfold charLiteral?
    rw [after?_of_ne (hlead "b'" (by decide))]
    rfl
  have hchar : charLiteral? "'" .str (c :: cs) = none := by
    unfold charLiteral?
    rw [after?_none rfl htick cs]
    rfl
  obtain ⟨hfloat, hint⟩ := number_none hdigit cs
  unfold literal?
  rw [hstr, hbytes, hzero, hbyte, hchar, hfloat, hint]
  rfl

/-- A lifetime is no character. -/
theorem literal?_lifetime {word : List Char} (hword : anyIdent? word = some []) (hstop : stops rest) :
    literal? ('\'' :: (word ++ rest)) = none := by
  have htext {lead : String} {rules : TextRules} {l l' : Char} {ls ls' : List Char}
      (hlead : (lead ++ "\"").toList = l :: ls) (hlead' : (lead ++ "r").toList = l' :: ls')
      (hl : '\'' ≠ l) (hl' : '\'' ≠ l') : textLiteral? lead rules ('\'' :: (word ++ rest)) = none := by
    refine textLiteral?_none (after?_none hlead hl _) fun r hr => ?_
    rw [after?_none hlead' hl' _] at hr
    cases hr
  have hbyte : charLiteral? "b'" .byteStr ('\'' :: (word ++ rest)) = none := by
    unfold charLiteral?
    rw [after?_none (l := 'b') rfl (by decide)]
    rfl
  have hchar : charLiteral? "'" .str ('\'' :: (word ++ rest)) = none := by
    have htick := anyIdent?_noTick hword hstop
    obtain ⟨c, cs, rfl, hc⟩ := anyIdent?_front hword
    have hslash : c ≠ '\\' := by
      rintro rfl
      cases hc
    have hafter : after? "'" ('\'' :: (c :: cs ++ rest)) = some (c :: (cs ++ rest)) := rfl
    rw [charLiteral?, hafter, Option.bind_eq_bind, Option.bind_some]
    split
    · rename_i heq
      exact absurd (List.cons.inj heq).1 hslash
    · rename_i heq
      obtain ⟨rfl, rfl⟩ := List.cons.inj heq
      rw [if_neg (by simp [TextRules.str]), Option.bind_some]
      beta_reduce
      split
      · exact absurd ‹_› (htick _)
      · rfl
    · contradiction
  obtain ⟨hfloat, hint⟩ := number_none (c := '\'') rfl (word ++ rest)
  unfold literal?
  rw [htext rfl rfl (by decide) (by decide), htext rfl rfl (by decide) (by decide),
    htext rfl rfl (by decide) (by decide), hbyte, hchar, hfloat, hint]
  rfl

theorem quoted_char {c : Char} (hc : c ≠ '\r' ∧ c ≠ '"' ∧ c ≠ '\\') (fuel : Nat) (cs : List Char) :
    quoted .str (fuel + 1) false (c :: cs) = quoted .str fuel false cs := by
  rw [quoted.eq_def]
  split
  · contradiction
  · contradiction
  · rename_i heq
    exact absurd (List.cons.inj heq).1 hc.1
  · rename_i _ hfuel heq
    cases hfuel
    cases heq
    simp [hc, TextRules.str]

/-- A quoted word ends at its quote. -/
theorem quoted_word {cs : List Char} (hcs : ∀ c ∈ cs, c.isAlphanum || c == '-') (hstop : stops rest)
    {fuel : Nat} (hfuel : cs.length < fuel) :
    quoted .str fuel false (cs ++ '"' :: rest) = some rest := by
  induction cs generalizing fuel with
  | nil =>
    obtain ⟨fuel, rfl⟩ := Nat.exists_eq_add_one_of_ne_zero (Nat.ne_zero_of_lt hfuel)
    have hsuffix : literalSuffix rest = rest := by
      have := local_ident? [] rest hstop
      rw [List.nil_append] at this
      rw [literalSuffix, this]
      rfl
    change some (literalSuffix rest) = some rest
    rw [hsuffix]
  | cons c cs ih =>
    obtain ⟨fuel, rfl⟩ := Nat.exists_eq_add_one_of_ne_zero (Nat.ne_zero_of_lt hfuel)
    have hc := hcs c (.head _)
    rw [List.cons_append, quoted_char]
    · exact ih (fun d hd => hcs d (.tail _ hd)) (Nat.lt_of_succ_lt_succ hfuel)
    · refine ⟨?_, ?_, ?_⟩
      all_goals
        rintro rfl
        cases hc

theorem literal?_quoted {cs : List Char} (hcs : ∀ c ∈ cs, c.isAlphanum || c == '-')
    (hstop : stops rest) : literal? ('"' :: (cs ++ '"' :: rest)) = some rest := by
  have htext : textLiteral? "" .str ('"' :: (cs ++ '"' :: rest)) = some rest := by
    unfold textLiteral?
    refine quoted_word hcs hstop ?_
    change cs.length < (cs ++ '"' :: rest).length + 1
    rw [List.length_append]
    omega
  unfold literal?
  rw [htext]
  rfl

/-! ## Signs -/

theorem isPunct_no {c : Char} (hc : isIdentStart c) : isPunct c = false := by
  have hall : "~!@#$%^&*-=+|;:,<.>/?'".toList.all (!isIdentStart ·) := by decide
  cases hpunct : isPunct c with
  | false => rfl
  | true =>
    have hno := List.all_eq_true.1 hall c (by simpa [isPunct] using hpunct)
    simp [hc] at hno

theorem isSign_all {p : Char → Bool} (hall : "<>,:&*-=+?!;".toList.all p) {c : Char} (h : isSign c) :
    p c := by
  refine List.all_eq_true.1 hall c ?_
  simp [isSign, isTight] at h ⊢
  tauto

/-- A sign is read as such: it begins no literal, no lifetime and no comment. -/
theorem leaf?_sign {c : Char} (hc : isSign c) (cs : List Char) :
    leaf? (c :: cs) = some (.punct (String.singleton c) (atPunct cs), cs) := by
  have hall : "<>,:&*-=+?!;".toList.all fun d => decide (d.isDigit = false ∧ isPunct d = true ∧
      d ≠ '/' ∧ d ≠ '"' ∧ d ≠ 'r' ∧ d ≠ 'b' ∧ d ≠ 'c' ∧ d ≠ '\'') := by decide
  obtain ⟨hdigit, hpunct, hslash, hfront⟩ := of_decide_eq_true (isSign_all hall hc)
  obtain ⟨hfloat, hint⟩ := number_none hdigit cs
  have hat : atPunct (c :: cs) = true := by
    simp [atPunct, startsWith, List.isPrefixOf, hslash.symm, hpunct]
  have hlifetime : lifetime? (c :: cs) = none := by
    unfold lifetime?
    split
    · rename_i heq
      exact absurd (List.cons.inj heq).1 hfront.2.2.2.2
    · rfl
  unfold leaf?
  rw [literal?_number hfront, hfloat, hint, hlifetime]
  simp [hat, hfront.2.2.2.2]

end Lexer

/-! ## Tokens -/

namespace Token

/-- A word, a lifetime, a number or a quoted word, as it may be written in a type. -/
inductive IsWord : Token → String → Prop
  | ident {text : String} (h : isWordText text) : IsWord (.ident text) text
  | lifetime {text : String} (h : isLifetimeText text) : IsWord (.lifetime text) text
  | number {text : String} (h : isNumberText text) : IsWord (.literal text) text
  | quoted {text : String} (h : isQuotedWord text) : IsWord (.literal text) text

variable {token : Token} {text : String} {rest : List Char}

/-- A word is read as it is in front of what ends it. -/
theorem IsWord.leaf?_eq (h : token.IsWord text) (hstop : stops rest) :
    leaf? (text.toList ++ rest) = some (token, rest) := by
  unfold leaf?
  cases h with
  | number h =>
    rw [literal?_of_isNumberText h hstop]
    simp [consumed_append]
  | quoted h =>
    obtain ⟨cs, htext, hcs⟩ := isQuotedWord_iff.1 h
    have hread : literal? (text.toList ++ rest) = some rest := by
      rw [htext, List.cons_append, List.append_assoc]
      exact literal?_quoted hcs hstop
    rw [hread]
    simp [consumed_append]
  | ident h =>
    simp only [isWordText, beq_iff_eq] at h
    have hleads := literalLeads_none h hstop
    have hword : word? (text.toList ++ rest) = some rest := by
      unfold word?
      rw [if_neg (by simp [hleads])]
      exact anyIdent?_append h hstop
    have hconsumed := consumed_append text.toList rest
    have htext : String.ofList text.toList = text := String.ofList_toList
    obtain ⟨c, cs, hcs, hc⟩ := anyIdent?_front h
    rw [hcs, List.cons_append] at hleads hword hconsumed ⊢
    rw [hcs] at htext
    have hlifetime : lifetime? (c :: (cs ++ rest)) = none := by
      unfold lifetime?
      split
      · rename_i heq
        rw [(List.cons.inj heq).1] at hc
        cases hc
      · rfl
    have hat : atPunct (c :: (cs ++ rest)) = false := by
      simp [atPunct, isPunct_no hc]
    rw [literal?_word hc hleads, hlifetime]
    simp [hat, hword, hconsumed, htext]
  | lifetime h =>
    unfold isLifetimeText at h
    split at h
    · rename_i word htext
      simp only [beq_iff_eq] at h
      have hlifetime : lifetime? ('\'' :: (word ++ rest)) = some rest := by
        rw [lifetime?, anyIdent?_append h hstop, Option.bind_eq_bind, Option.bind_some]
        split
        · exact absurd (hstop _ rfl) (by decide)
        · exact absurd (hstop _ rfl) (by decide)
        · rfl
      have hconsumed := consumed_append text.toList rest
      have hchars : String.ofList text.toList = text := String.ofList_toList
      rw [htext] at hconsumed hchars ⊢
      rw [List.cons_append] at hconsumed ⊢
      rw [literal?_lifetime h hstop, hlifetime]
      simp [hconsumed, hchars]
    · cases h

theorem IsWord.chars (h : token.IsWord text) :
    text.toList ≠ [] ∧ ∀ c ∈ text.toList, c ≠ ' ' ∧ isTight c = false := by
  have hno {c : Char} (hc : isIdentStart c ∨ isIdentContinue c ∨ c = '#') :
      c ≠ ' ' ∧ isTight c = false := by
    have hstop : ¬ isStop c := by
      intro hstop
      rcases hc with h | h | rfl
      · rw [(isStop_no hstop).1] at h
        cases h
      · rw [(isStop_no hstop).2.1] at h
        cases h
      · cases hstop
    simp only [isStop, Bool.or_eq_true, beq_iff_eq, not_or] at hstop
    exact ⟨hstop.1.1.2, by simpa using hstop.1.1.1⟩
  have hword {word : List Char} (h : anyIdent? word = some []) :
      word ≠ [] ∧ ∀ c ∈ word, c ≠ ' ' ∧ isTight c = false := by
    obtain ⟨hne, hchars⟩ := anyIdent?_chars h
    exact ⟨hne, fun c hc => hno (hchars c hc)⟩
  cases h with
  | ident h => exact hword (by simpa [isWordText] using h)
  | lifetime h =>
    unfold isLifetimeText at h
    split at h
    · rename_i word htext
      rw [htext]
      refine ⟨List.cons_ne_nil _ _, fun c hc => ?_⟩
      rcases List.mem_cons.1 hc with rfl | hc
      · decide
      · exact (hword (by simpa using h)).2 c hc
    · cases h
  | number h =>
    obtain ⟨c, cs, htext, -⟩ := front_of_isNumberText h
    refine ⟨by rw [htext]; exact List.cons_ne_nil _ _, fun c hc => ?_⟩
    simp only [isNumberText, Bool.and_eq_true, List.all_eq_true] at h
    exact hno (.inr (.inl (h.1.2 c hc)))
  | quoted h =>
    obtain ⟨cs, htext, hcs⟩ := isQuotedWord_iff.1 h
    rw [htext]
    refine ⟨List.cons_ne_nil _ _, fun c hc => ?_⟩
    have hc : c = '"' ∨ c ∈ cs := by simpa [or_comm, or_assoc] using hc
    rcases hc with rfl | hc
    · decide
    · have hword := hcs c hc
      refine ⟨?_, ?_⟩
      · rintro rfl
        cases hword
      · cases htight : isTight c with
        | false => rfl
        | true => rcases isTight_cases htight with rfl | rfl | rfl | rfl | rfl <;> cases hword

/-! ## First characters -/

/-- The characters that separate tokens, and the mark that a text may begin with. -/
def skippedRanges : List (Nat × Nat) :=
  [(0x9, 0xd), (0x20, 0x20), (0x85, 0x85), (0xa0, 0xa0), (0x1680, 0x1680), (0x2000, 0x200a),
    (0x200e, 0x200f), (0x2028, 0x2029), (0x202f, 0x202f), (0x205f, 0x205f), (0x3000, 0x3000),
    (0xfeff, 0xfeff)]

theorem inRanges_disjoint {xs ys : List (Nat × Nat)}
    (h : xs.all fun x => ys.all fun y => x.2 < y.1 || y.2 < x.1) {c : Char} (hx : inRanges xs c) :
    inRanges ys c = false := by
  simp only [inRanges, List.any_eq_true, Bool.and_eq_true, decide_eq_true_eq, List.all_eq_true,
    Bool.or_eq_true, List.any_eq_false] at *
  obtain ⟨x, hmem, hlow, hhigh⟩ := hx
  intro y hy
  have := h x hmem y hy
  omega

theorem isBlank_skipped {c : Char} (h : isBlank c) : inRanges skippedRanges c := by
  simp only [isBlank, Bool.or_eq_true, Bool.and_eq_true, beq_iff_eq, decide_eq_true_eq, or_assoc] at h
  rcases h with rfl | ⟨hl, hr⟩ | rfl | rfl | rfl | ⟨hl, hr⟩ | rfl | rfl | rfl | rfl | rfl | rfl | rfl
  all_goals first
    | decide
    | skip
  · have hl : 9 ≤ c.toNat := hl
    have hr : c.toNat ≤ 13 := hr
    simp [inRanges, skippedRanges]
    omega
  · have hl : 0x2000 ≤ c.toNat := hl
    have hr : c.toNat ≤ 0x200a := hr
    simp [inRanges, skippedRanges]
    omega

/-- What begins a word is skipped nowhere. -/
theorem not_skipped {c : Char} (h : isIdentStart c) : inRanges skippedRanges c = false := by
  unfold isIdentStart at h
  split at h
  · rename_i hlow
    have hletter : 65 ≤ c.toNat ∧ c.toNat ≤ 122 := by
      simp only [Bool.or_eq_true, beq_iff_eq] at h
      rcases h with halpha | rfl
      · delta Char.isAlpha Char.isUpper Char.isLower at halpha
        simp only [UInt32.le_iff_toNat_le, Bool.or_eq_true, Bool.and_eq_true, decide_eq_true_eq,
          ge_iff_le] at halpha
        change (65 ≤ c.toNat ∧ c.toNat ≤ 90) ∨ (97 ≤ c.toNat ∧ c.toNat ≤ 122) at halpha
        omega
      · decide
    simp [inRanges, skippedRanges]
    omega
  · exact inRanges_disjoint (by decide +kernel) h

/-- The slash of a comment, and the brackets. -/
def ownSigns : List Char := ['/', '(', ')', '[', ']', '\x7b', '\x7d']

/-- Where no blank, no comment and no bracket is, a token begins. -/
def begins (c : Char) : Bool := !inRanges skippedRanges c && !ownSigns.contains c

theorem not_ownSign {p : Char → Bool} (hno : ownSigns.all (!p ·)) {c : Char} (h : p c) :
    c ∉ ownSigns := by
  intro hmem
  have := List.all_eq_true.1 hno c hmem
  simp [h] at this

theorem begins_isIdentStart {c : Char} (h : isIdentStart c) : begins c := by
  have hc : c ∉ ownSigns := not_ownSign (by decide) h
  simp [begins, not_skipped h, hc]

theorem begins_isDigit {c : Char} (h : c.isDigit) : begins c := by
  have hc : c ∉ ownSigns := not_ownSign (by decide) h
  have hskip : inRanges skippedRanges c = false := by
    have hbounds : 48 ≤ c.toNat ∧ c.toNat ≤ 57 := by
      simpa [Char.isDigit, UInt32.le_iff_toNat_le] using h
    simp [inRanges, skippedRanges]
    omega
  simp [begins, hskip, hc]

theorem IsWord.begins (h : token.IsWord text) : ∃ c cs, text.toList = c :: cs ∧ begins c := by
  cases h with
  | ident h =>
    obtain ⟨c, cs, htext, hc⟩ := anyIdent?_front (by simpa [isWordText] using h)
    exact ⟨c, cs, htext, begins_isIdentStart hc⟩
  | lifetime h =>
    unfold isLifetimeText at h
    split at h
    · exact ⟨_, _, ‹_›, by decide⟩
    · cases h
  | number h =>
    obtain ⟨c, cs, htext, hc⟩ := front_of_isNumberText h
    exact ⟨c, cs, htext, begins_isDigit hc⟩
  | quoted h =>
    obtain ⟨cs, htext, -⟩ := isQuotedWord_iff.1 h
    exact ⟨_, _, htext, by decide⟩

end Token

end WrapperGen.Source
