import Mathlib.Data.List.TakeWhile
import WrapperGen.Proofs.Source.Results
/-!
# Names without colons

A path is a list of names, a name a word of the text, and a word holds no colon. So paths can be
told apart by their texts with `::` between the names. `Path.parse_first`: the first name of a path
that was read holds no colon.
-/

namespace WrapperGen

namespace Text

theorem not_isDigit {c : Char} (hc : isIdentStart c) : c.isDigit = false := by
  cases hd : c.isDigit with
  | false => rfl
  | true =>
    have hbounds : 48 ≤ c.toNat ∧ c.toNat ≤ 57 := by
      simpa [Char.isDigit, UInt32.le_iff_toNat_le] using hd
    have halpha : c.isAlpha = false := by
      delta Char.isAlpha Char.isUpper Char.isLower
      simp only [UInt32.le_iff_toNat_le, Bool.or_eq_false_iff]
      simp
      omega
    have hbar : c ≠ '_' := by
      rintro rfl
      exact absurd hd (by decide)
    simp [isIdentStart, halpha, hbar, show c.toNat < 0x80 by omega] at hc

end Text

namespace Source

/-! ## Words -/

/-- The text has no colon, so it can stand between colons as a name. -/
def NoColon (text : String) : Prop := ':' ∉ text.toList

instance (text : String) : Decidable (NoColon text) := inferInstanceAs (Decidable (_ ∉ _))

/-- The tree is no word with a colon. -/
def Tree.WordsOk (t : Tree) : Prop := ∀ text pos, t = .leaf (.ident text) pos → NoColon text

namespace Lexer

/-- A word is read from its own characters, all of them. -/
theorem ident?_consumed {cs rest : List Char} (h : ident? cs = some rest) :
    ∃ word, cs = word ++ rest ∧ ident? word = some [] := by
  unfold ident? at h
  split at h
  · rename_i c r
    split at h
    · rename_i hc
      cases h
      refine ⟨c :: r.takeWhile Text.isIdentContinue, ?_, ?_⟩
      · rw [List.cons_append, List.takeWhile_append_dropWhile]
      · have hall : (r.takeWhile Text.isIdentContinue).dropWhile Text.isIdentContinue = [] :=
          List.dropWhile_eq_nil_iff.2 fun c hc => List.all_eq_true.1 List.all_takeWhile c hc
        rw [ident?, if_pos hc, hall]
    · cases h
  · cases h

theorem after?_some {lead : String} {cs rest : List Char} (h : after? lead cs = some rest) :
    cs = lead.toList ++ rest := by
  unfold after? at h
  split at h
  · rename_i hlead
    obtain ⟨tail, rfl⟩ := List.isPrefixOf_iff_prefix.1 hlead
    cases h
    rw [List.drop_left' String.length_toList]
  · cases h

theorem consumed_append (cs rest : List Char) : consumed (cs ++ rest) rest = cs := by
  simp [consumed]

theorem anyIdent?_consumed {cs rest : List Char} (h : anyIdent? cs = some rest) :
    ∃ word, cs = word ++ rest ∧ anyIdent? word = some [] := by
  unfold anyIdent? at h
  split at h
  · rename_i hlead
    obtain ⟨word, rfl, hword⟩ := ident?_consumed h
    refine ⟨word, rfl, ?_⟩
    have hnone : after? "r#" word = none := by
      unfold after? at hlead ⊢
      refine if_neg fun hprefix => ?_
      rw [if_pos] at hlead
      · cases hlead
      · rw [List.isPrefixOf_iff_prefix] at hprefix ⊢
        exact hprefix.trans (List.prefix_append _ _)
    rw [anyIdent?, hnone]
    exact hword
  · rename_i inner hinner
    obtain ⟨rest', hrest', h⟩ := Option.bind_eq_some_iff.1 h
    split at h
    · cases h
    · rename_i hraw
      cases h
      obtain ⟨word, rfl, hword⟩ := ident?_consumed hrest'
      refine ⟨"r#".toList ++ word, by rw [after?_some hinner, List.append_assoc], ?_⟩
      rw [consumed_append] at hraw
      change (do
        let rs ← ident? word
        if noRawForm.contains (String.ofList (consumed word rs)) then none else some rs) = _
      rw [hword]
      simpa [consumed] using hraw

theorem ident?_chars {cs : List Char} (h : ident? cs = some []) :
    cs ≠ [] ∧ ∀ c ∈ cs, Text.isIdentStart c ∨ Text.isIdentContinue c := by
  unfold ident? at h
  split at h
  · rename_i c r
    split at h
    · rename_i hc
      refine ⟨List.cons_ne_nil c r, fun d hd => ?_⟩
      rcases List.mem_cons.1 hd with rfl | hd
      · exact .inl hc
      · exact .inr (List.dropWhile_eq_nil_iff.1 (Option.some.inj h) d hd)
    · cases h
  · cases h

/-- What an identifier consists of. -/
theorem anyIdent?_chars {cs : List Char} (h : anyIdent? cs = some []) :
    cs ≠ [] ∧ ∀ c ∈ cs, Text.isIdentStart c ∨ Text.isIdentContinue c ∨ c = '#' := by
  unfold anyIdent? at h
  split at h
  · obtain ⟨hne, hall⟩ := ident?_chars h
    exact ⟨hne, fun c hc => (hall c hc).imp_right .inl⟩
  · rename_i inner hinner
    obtain ⟨rest, hrest, h⟩ := Option.bind_eq_some_iff.1 h
    split at h
    · cases h
    · cases h
      obtain ⟨-, hall⟩ := ident?_chars hrest
      rw [after?_some hinner]
      refine ⟨nofun, fun c hc => ?_⟩
      rcases List.mem_append.1 hc with hc | hc
      · obtain rfl | rfl : c = 'r' ∨ c = '#' := by simpa using hc
        · exact .inl (by decide)
        · exact .inr (.inr rfl)
      · exact (hall c hc).imp_right .inl

theorem word?_consumed {cs rest : List Char} (h : word? cs = some rest) :
    anyIdent? (consumed cs rest) = some [] := by
  unfold word? at h
  split at h
  · cases h
  · obtain ⟨word, rfl, hword⟩ := anyIdent?_consumed h
    simpa [consumed] using hword

/-- A word that is a token of its own is no literal and no sign. -/
theorem leaf?_ident {cs rest : List Char} {text : String}
    (h : leaf? cs = some (.ident text, rest)) : anyIdent? text.toList = some [] := by
  unfold leaf? at h
  split at h
  · cases h
  · split at h
    · cases h
    · split at h
      · split at h
        · cases h
        · obtain ⟨r, hr, heq⟩ := Option.map_eq_some_iff.1 h
          cases heq
          rw [String.toList_ofList]
          exact word?_consumed hr
      · cases h

/-! ## Trees -/

/-- A property of trees that the tokens of a text have, and a bracket if all in it have it. -/
structure Holds (P : Tree → Prop) : Prop where
  leaf : ∀ ⦃cs rest t⦄, leaf? cs = some (t, rest) → ∀ pos, P (.leaf t pos)
  doc : ∀ text inner pos closed, ∀ t ∈ docTrees text inner pos closed, P t
  group : ∀ d ts opened closed, (∀ t ∈ ts, P t) → P (.group d ts opened closed)

variable {P : Tree → Prop}

/-- Trees without the property come neither from the text nor from what was read before. -/
theorem Holds.lexFrom (hP : Holds P) {fuel : Nat} {stack : List Frame} {done trees : List Tree}
    {pos : Pos} {cs : List Char} (hdone : ∀ t ∈ done, P t)
    (hstack : ∀ f ∈ stack, ∀ t ∈ f.before, P t)
    (h : lexFrom fuel stack done pos cs = .ok trees) : ∀ t ∈ trees, P t := by
  induction fuel generalizing stack done pos cs with
  | zero => cases h
  | succ fuel ih =>
    unfold Lexer.lexFrom at h
    dsimp only at h
    split at h
    · refine ih ?_ hstack h
      intro t ht
      rcases List.mem_append.1 ht with ht | ht
      · exact hP.doc _ _ _ _ t (List.mem_reverse.1 ht)
      · exact hdone t ht
    · split at h
      · split at h
        · cases h
          exact fun t ht => hdone t (List.mem_reverse.1 ht)
        · cases h
      · split at h
        · refine ih (fun t ht => absurd ht List.not_mem_nil) ?_ h
          rintro f (_ | ⟨_, hf⟩)
          · exact hdone
          · exact hstack f hf
        · split at h
          · split at h
            · cases h
            · split at h
              · refine ih ?_ (fun f hf => hstack f (.tail _ hf)) h
                rintro t (_ | ⟨_, ht⟩)
                · exact hP.group _ _ _ _ fun t ht => hdone t (List.mem_reverse.1 ht)
                · exact hstack _ (.head _) t ht
              · cases h
          · split at h
            · rename_i hleaf
              refine ih ?_ hstack h
              rintro t (_ | ⟨_, ht⟩)
              · exact hP.leaf hleaf _
              · exact hdone t ht
            · cases h

theorem Holds.lex (hP : Holds P) {text : String} {trees : List Tree}
    (h : lex text = .ok trees) : ∀ t ∈ trees, P t :=
  hP.lexFrom (fun _ ht => absurd ht List.not_mem_nil) (fun _ hf => absurd hf List.not_mem_nil) h

theorem noColon_of_anyIdent? {text : String} (h : anyIdent? text.toList = some []) :
    NoColon text := by
  intro hmem
  rcases (anyIdent?_chars h).2 _ hmem with h | h | h <;> exact absurd h (by decide)

theorem holds_wordsOk : Holds Tree.WordsOk where
  leaf := by
    rintro cs rest t h pos text pos' ⟨⟩
    exact noColon_of_anyIdent? (leaf?_ident h)
  doc := by
    rintro text inner pos closed t ht word pos' rfl
    cases inner <;> simp [docTrees, Token.op] at ht
  group := by
    rintro d ts opened closed - text pos ⟨⟩

theorem lex_wordsOk {text : String} {trees : List Tree} (h : lex text = .ok trees) :
    ∀ t ∈ trees, t.WordsOk := holds_wordsOk.lex h

end Lexer

/-! ## Paths -/

namespace Reader

theorem op_eq {text : String} {c : Cursor} (hop : peekOp text c.rest = true) :
    op text c = .ok (.op text, { c with rest := c.rest.drop text.length }) := by
  unfold op
  change (if peekOp text c.rest then _ else _ : Reader Node) c = _
  rw [if_pos hop]
  rfl

theorem op?_eq (text : String) (c : Cursor) :
    op? text c = .ok (if peekOp text c.rest then
      (some (.op text), { c with rest := c.rest.drop text.length }) else (none, c)) := by
  unfold op?
  change (if peekOp text c.rest then _ else _ : Reader (Option Node)) c = _
  split
  · rename_i hop
    change (op text c >>= _) = _
    rw [op_eq hop]
    rfl
  · rfl

/-- An operator is taken from the front. -/
theorem op?_rest {text : String} {c c' : Cursor} {n : Option Node} (h : op? text c = .ok (n, c')) :
    ∀ t ∈ c'.rest, t ∈ c.rest := by
  rw [op?_eq] at h
  split at h <;> cases h
  · exact fun t ht => List.mem_of_mem_drop ht
  · exact fun t ht => ht

end Reader

namespace Grammar

open Reader

variable {g : Grammar} {inner : PathGrammar}

theorem segment_ok {exprStyle : Bool} {c c' : Cursor} {s : Segment}
    (h : g.segment inner exprStyle c = .ok (s, c')) :
    ∃ pos, .leaf (.ident s.name) pos ∈ c.rest := by
  have hfront {word : String} {d : Cursor}
      (hword : anyWord c = .ok (word, d) ∨ name c = .ok (word, d)) :
      ∃ pos, .leaf (.ident word) pos ∈ c.rest := by
    obtain ⟨pos, hrest⟩ := hword.elim anyWord_ok fun h => (name_ok h).2
    exact ⟨pos, hrest ▸ .head _⟩
  unfold segment at h
  obtain ⟨ts, d, hrest, h⟩ := bind_ok h
  cases hrest
  split at h
  · obtain ⟨word, d, hword, h⟩ := bind_ok h
    cases h
    exact hfront (.inl hword)
  · dsimp only at h
    have hname : ∃ d, anyWord c = .ok (s.name, d) ∨ name c = .ok (s.name, d) := by
      split at h <;>
      · obtain ⟨word, d, hword, h⟩ := bind_ok h
        have hs : s.name = word := by
          obtain ⟨ts, d', hrest, h⟩ := bind_ok h
          cases hrest
          split at h
          · obtain ⟨args, d'', hargs, h⟩ := bind_ok h
            cases h
            rfl
          · cases h
            rfl
        exact ⟨d, by simp [hs, hword]⟩
    obtain ⟨d, hword⟩ := hname
    exact hfront hword

theorem pathWith_ok {exprStyle : Bool} {c c' : Cursor} {p : Path}
    (h : g.pathWith inner exprStyle c = .ok (p, c')) :
    ∃ s ss pos, p.segments = s :: ss ∧ .leaf (.ident s.name) pos ∈ c.rest := by
  unfold pathWith at h
  obtain ⟨colons, d, hcolons, h⟩ := bind_ok h
  obtain ⟨first, d', hfirst, h⟩ := bind_ok h
  obtain ⟨more, d'', hmore, h⟩ := bind_ok h
  cases h
  obtain ⟨pos, hpos⟩ := segment_ok hfirst
  exact ⟨first, more, pos, rfl, op?_rest hcolons _ hpos⟩

end Grammar

/-- The first name of a path that was read holds no colon. -/
theorem Path.parse_first {text : String} {p : Path} (h : Path.parse text = .ok p) :
    ∃ s ss, p.segments = s :: ss ∧ NoColon s.name := by
  unfold Path.parse at h
  obtain ⟨trees, c, hlex, hpath⟩ := readText_ok h
  unfold Grammar.path at hpath
  obtain ⟨grammar, d, hinner, hpath⟩ := Reader.bind_ok hpath
  cases hinner
  obtain ⟨s, ss, pos, hsegments, hmem⟩ := Grammar.pathWith_ok hpath
  exact ⟨s, ss, hsegments, Lexer.lex_wordsOk hlex _ hmem _ _ rfl⟩

end Source

end WrapperGen
