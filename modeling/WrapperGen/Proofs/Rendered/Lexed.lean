import WrapperGen.Proofs.Rendered.Taking
import WrapperGen.Proofs.Rendered.Written
/-!
# Reading the tokens of a line

The lexer reads a text of lexemes as the trees that they are, at some places, where signs next to
each other have become joint (`Flat.lex`). It goes through the lexemes one by one
(`Scan.Reaches.step`) and into each bracket and out of it again.
-/

namespace WrapperGen.Source

open Tree Text Lexer

namespace Lexer

/-! ## What begins with a token -/

section Begins

variable {c : Char} {cs : List Char}

theorem startsWith_slash (lead : String) {ls : List Char} (hlead : lead.toList = '/' :: ls)
    (hc : c ≠ '/') : startsWith lead (c :: cs) = false := by
  rw [startsWith, hlead]
  simp [List.isPrefixOf, hc.symm]

theorem skip_of_ne (hblank : isBlank c = false) (hc : c ≠ '/') : skip (c :: cs) = c :: cs := by
  unfold skip skipBlanks
  rw [startsWith_slash "//" rfl hc, startsWith_slash "/**/" rfl hc, startsWith_slash "/*" rfl hc]
  simp [hblank]

theorem docComment?_none (hc : c ≠ '/') : docComment? (c :: cs) = none := by
  unfold docComment?
  simp only [startsWith_slash "//!" rfl hc, startsWith_slash "/*!" rfl hc,
    startsWith_slash "///" rfl hc, startsWith_slash "/**" rfl hc]
  rfl

theorem begins_no (hc : Token.begins c) : isBlank c = false ∧ c ≠ '/' ∧ Delim.ofOpening? c = none ∧
    Delim.ofClosing? c = none := by
  simp only [Token.begins, Bool.and_eq_true, Bool.not_eq_true'] at hc
  obtain ⟨hskip, hown⟩ := hc
  have hown : c ∉ Token.ownSigns := by simpa using hown
  have hne {d : Char} (hd : d ∈ Token.ownSigns) : c ≠ d := by
    rintro rfl
    exact hown hd
  refine ⟨?_, hne (by decide), ?_, ?_⟩
  · cases hblank : isBlank c with
    | false => rfl
    | true =>
      rw [Token.isBlank_skipped hblank] at hskip
      cases hskip
  · unfold Delim.ofOpening?
    split
    · exact absurd rfl (hne (by decide))
    · exact absurd rfl (hne (by decide))
    · exact absurd rfl (hne (by decide))
    · rfl
  · unfold Delim.ofClosing?
    split
    · exact absurd rfl (hne (by decide))
    · exact absurd rfl (hne (by decide))
    · exact absurd rfl (hne (by decide))
    · rfl

theorem begins_isSign (h : isSign c) : Token.begins c := isSign_all (by decide) h

end Begins

end Lexer

/-! ## Lexemes in front -/

/-- The first character of a lexeme is skipped by nothing. -/
theorem Lexeme.IsPlain.front {l : Lexeme} (h : l.IsPlain) : ∃ c ds, l.chars = c :: ds ∧
    isBlank c = false ∧ c ≠ '/' ∧ c ≠ '\ufeff' := by
  have hmark {c : Char} (hc : Token.begins c) : c ≠ '\ufeff' := by
    rintro rfl
    exact absurd hc (by decide)
  cases l with
  | word token text =>
    obtain ⟨c, cs, htext, hc⟩ := Token.IsWord.begins h
    obtain ⟨hblank, hslash, -⟩ := begins_no hc
    exact ⟨c, cs, htext, hblank, hslash, hmark hc⟩
  | sign c joint =>
    have hc := begins_isSign h
    obtain ⟨hblank, hslash, -⟩ := begins_no hc
    exact ⟨c, [], rfl, hblank, hslash, hmark hc⟩
  | opened d | closed d =>
    refine ⟨_, [], rfl, ?_⟩
    cases d <;> decide

namespace Writes

variable {l : Lexeme} {ls : List Lexeme} {cs : List Char}

theorem skip_nil (h : Writes [] cs) : skip cs = [] := by
  generalize hls : [] = ls at h
  induction h with
  | nil => rfl
  | blank _ ih => rw [skip_blank (by decide), ih hls]
  | lexeme => cases hls

/-- Behind the blanks comes the first lexeme. -/
theorem skip_cons (h : Writes (l :: ls) cs) : ∃ ds, skip cs = l.chars ++ ds ∧ l.IsPlain ∧
    l.Ends ds ∧ Writes ls ds ∧ ds.length < cs.length := by
  generalize hks : l :: ls = ks at h
  induction h with
  | nil => cases hks
  | blank _ ih =>
    obtain ⟨ds, hskip, hplain, hends, hmore, hlt⟩ := ih hks
    refine ⟨ds, ?_, hplain, hends, hmore, Nat.lt_succ_of_lt hlt⟩
    rw [skip_blank (by decide), hskip]
  | lexeme plain ends more =>
    cases hks
    obtain ⟨c, ds, hchars, hblank, hslash, -⟩ := plain.front
    refine ⟨_, ?_, plain, ends, more, ?_⟩
    · rw [hchars, List.cons_append, skip_of_ne hblank hslash]
    · rw [List.length_append, hchars, List.length_cons]
      omega

theorem dropMark (h : Writes ls cs) : Lexer.dropMark cs = cs := by
  have hmark : cs.head? ≠ some '\ufeff' := by
    cases h with
    | nil => nofun
    | blank => simp
    | lexeme plain =>
      obtain ⟨c, ds, hchars, -, -, hc⟩ := plain.front
      rw [hchars]
      simpa using hc
  unfold Lexer.dropMark
  split
  · exact absurd rfl hmark
  · rfl

end Writes

namespace Lexer.Scan

/-- The scanner gets from one state to the other, with turns to spare for the rest of the text. -/
def Reaches (s s' : Scan) : Prop := ∀ fuel, s.rest.length ≤ fuel →
  ∃ fuel', s'.rest.length ≤ fuel' ∧ s.run (fuel + 1) = s'.run (fuel' + 1)

namespace Reaches

variable {s s' s'' : Scan}

theorem refl (s : Scan) : Reaches s s := fun fuel h => ⟨fuel, h, rfl⟩

theorem trans (h : Reaches s s') (h' : Reaches s' s'') : Reaches s s'' := by
  intro fuel hfuel
  obtain ⟨fuel', hfuel', hrun⟩ := h fuel hfuel
  obtain ⟨fuel'', hfuel'', hrun'⟩ := h' fuel' hfuel'
  exact ⟨fuel'', hfuel'', hrun.trans hrun'⟩

theorem step (h : s.step = .goes s') (hshorter : s'.rest.length < s.rest.length) : Reaches s s' := by
  intro fuel hfuel
  obtain ⟨fuel, rfl⟩ : ∃ n, fuel = n + 1 := ⟨fuel - 1, by omega⟩
  refine ⟨fuel, by omega, ?_⟩
  rw [run_succ, h]

end Reaches

variable (stack : List Frame) (done : List Tree) (pos : Pos) {cs : List Char} {ls : List Lexeme}

/-- A word and a sign become a leaf. -/
theorem reaches_leaf {l : Lexeme} {token : Token} (h : Writes (l :: ls) cs)
    (hl : ∀ ds, l.IsPlain → l.Ends ds → (∃ c cs, l.chars = c :: cs ∧ Token.begins c) ∧
      ∃ token', leaf? (l.chars ++ ds) = some (token', ds) ∧
        ∀ pos pos', (Tree.leaf token pos).Spells (.leaf token' pos')) :
    ∃ u pos' ds, (∀ pos, (Tree.leaf token pos).Spells u) ∧ Writes ls ds ∧
      Reaches ⟨stack, done, pos, cs⟩ ⟨stack, u :: done, pos', ds⟩ := by
  obtain ⟨ds, hskip, hplain, hends, hmore, hlt⟩ := h.skip_cons
  obtain ⟨⟨c, r, hchars, hc⟩, token', hleaf, hspells⟩ := hl ds hplain hends
  obtain ⟨-, hslash, hopening, hclosing⟩ := begins_no hc
  have hstep (start : Pos) : stepAt stack done start (l.chars ++ ds) =
      .goes ⟨stack, .leaf token' start :: done, start.advance (consumed (l.chars ++ ds) ds), ds⟩ := by
    unfold stepAt
    rw [hchars, List.cons_append] at hleaf ⊢
    rw [docComment?_none hslash]
    dsimp only
    rw [hopening, hclosing, hleaf]
  rw [← hskip] at hstep
  exact ⟨_, _, ds, fun pos => hspells pos _, hmore, .step (hstep _) hlt⟩

theorem reaches_word {token : Token} {text : String} (h : Writes (.word token text :: ls) cs) :
    ∃ u pos' ds, (∀ pos, (Tree.leaf token pos).Spells u) ∧ Writes ls ds ∧
      Reaches ⟨stack, done, pos, cs⟩ ⟨stack, u :: done, pos', ds⟩ := by
  refine reaches_leaf stack done pos h fun ds hplain hends =>
    ⟨Token.IsWord.begins hplain, token, ?_, ?_⟩
  · exact Token.IsWord.leaf?_eq hplain hends
  · rintro pos pos'
    refine .leaf fun _ _ heq => ?_
    subst heq
    cases hplain

/-- A sign in front of another one is joint. -/
theorem atPunct_of_sign {ds : List Char} (h : ds.head?.any isSign) : atPunct ds = true := by
  cases ds with
  | nil => cases h
  | cons c ds =>
    obtain ⟨-, hslash, -⟩ := begins_no (begins_isSign h)
    have hpunct : isPunct c = true := isSign_all (by decide) h
    unfold atPunct
    rw [startsWith_slash "//" rfl hslash, startsWith_slash "/*" rfl hslash]
    simpa using hpunct

theorem reaches_sign {c : Char} {joint : Bool} (h : Writes (.sign c joint :: ls) cs) :
    ∃ u pos' ds, (∀ pos, (Tree.leaf (.punct (String.singleton c) joint) pos).Spells u) ∧
      Writes ls ds ∧ Reaches ⟨stack, done, pos, cs⟩ ⟨stack, u :: done, pos', ds⟩ := by
  refine reaches_leaf stack done pos h fun ds hplain hends => ⟨⟨c, [], rfl, begins_isSign hplain⟩, _,
    leaf?_sign hplain ds, fun pos pos' => .punct fun hjoint => ?_⟩
  subst hjoint
  exact atPunct_of_sign hends

theorem reaches_opened {d : Delim} (h : Writes (.opened d :: ls) cs) :
    ∃ opened pos' ds, Writes ls ds ∧
      Reaches ⟨stack, done, pos, cs⟩ ⟨⟨opened, d, done⟩ :: stack, [], pos', ds⟩ := by
  obtain ⟨ds, hskip, -, -, hmore, hlt⟩ := h.skip_cons
  have hstep (start : Pos) : stepAt stack done start (d.opening :: ds) =
      .goes ⟨⟨start, d, done⟩ :: stack, [], start.next d.opening, ds⟩ := by
    unfold stepAt
    rw [docComment?_none (by cases d <;> decide)]
    dsimp only
    rw [Delim.ofOpening?_opening]
  change skip cs = d.opening :: ds at hskip
  rw [← hskip] at hstep
  exact ⟨_, _, ds, hmore, .step (hstep _) hlt⟩

theorem reaches_closed {d : Delim} (opened : Pos) (before : List Tree)
    (h : Writes (.closed d :: ls) cs) :
    ∃ closed pos' ds, Writes ls ds ∧ Reaches ⟨⟨opened, d, before⟩ :: stack, done, pos, cs⟩
      ⟨stack, .group d done.reverse opened closed :: before, pos', ds⟩ := by
  obtain ⟨ds, hskip, -, -, hmore, hlt⟩ := h.skip_cons
  have hstep (start : Pos) : stepAt (⟨opened, d, before⟩ :: stack) done start (d.closing :: ds) =
      .goes ⟨stack, .group d done.reverse opened start :: before, start.next d.closing, ds⟩ := by
    have hopening : Delim.ofOpening? d.closing = none := by cases d <;> rfl
    unfold stepAt
    rw [docComment?_none (by cases d <;> decide)]
    dsimp only
    rw [hopening, Delim.ofClosing?_closing]
    dsimp only
    rw [if_pos rfl]
  change skip cs = d.closing :: ds at hskip
  rw [← hskip] at hstep
  exact ⟨_, _, ds, hmore, .step (hstep _) hlt⟩

end Lexer.Scan

/-! ## Texts of trees -/

open Lexer.Scan in
/-- The scanner goes through the lexemes of some trees and has these trees then. -/
theorem Flat.reaches {ts : List Tree} {ks : List Lexeme} (h : Flat ts ks) {ls : List Lexeme}
    {cs : List Char} (hcs : Writes (ks ++ ls) cs) (stack : List Frame) (done : List Tree) (pos : Pos) :
    ∃ us pos' ds, Spelled ts us ∧ Writes ls ds ∧
      Reaches ⟨stack, done, pos, cs⟩ ⟨stack, us.reverse ++ done, pos', ds⟩ := by
  induction h generalizing ls cs stack done pos with
  | nil => exact ⟨[], pos, cs, .nil, hcs, .refl _⟩
  | word _ _ ih =>
    obtain ⟨u, pos', ds, hu, hds, hreach⟩ := reaches_word stack done pos hcs
    obtain ⟨us, pos'', es, hus, hes, hmore⟩ := ih hds stack (u :: done) pos'
    refine ⟨u :: us, pos'', es, .cons (hu _) hus, hes, ?_⟩
    rw [List.reverse_cons, List.append_assoc]
    exact hreach.trans hmore
  | sign _ _ _ ih =>
    obtain ⟨u, pos', ds, hu, hds, hreach⟩ := reaches_sign stack done pos hcs
    obtain ⟨us, pos'', es, hus, hes, hmore⟩ := ih hds stack (u :: done) pos'
    refine ⟨u :: us, pos'', es, .cons (hu _) hus, hes, ?_⟩
    rw [List.reverse_cons, List.append_assoc]
    exact hreach.trans hmore
  | @group d _ _ _ _ _ _ _ _ _ ihinside ih =>
    rw [List.cons_append, List.append_assoc] at hcs
    obtain ⟨opened, pos₁, ds, hds, hopened⟩ := reaches_opened stack done pos hcs
    obtain ⟨us, pos₂, es, hus, hes, hinside⟩ := ihinside hds (⟨opened, d, done⟩ :: stack) [] pos₁
    rw [List.append_nil] at hinside
    obtain ⟨closed, pos₃, fs, hfs, hclosed⟩ := reaches_closed stack us.reverse pos₂ opened done hes
    rw [List.reverse_reverse] at hclosed
    obtain ⟨vs, pos₄, gs, hvs, hgs, hmore⟩ := ih hfs stack (.group d us opened closed :: done) pos₃
    refine ⟨.group d us opened closed :: vs, pos₄, gs, .cons (.group hus) hvs, hgs, ?_⟩
    rw [List.reverse_cons, List.append_assoc]
    exact hopened.trans (hinside.trans (hclosed.trans hmore))

/-- A text of lexemes is read as their trees. -/
theorem Flat.lex {ts : List Tree} {ls : List Lexeme} (h : Flat ts ls) {text : String}
    (htext : Writes ls text.toList) : ∃ us, Lexer.lex text = .ok us ∧ Spelled ts us := by
  have hnil : Writes (ls ++ []) text.toList := by rwa [List.append_nil]
  obtain ⟨us, pos, ds, hus, hds, hreach⟩ := h.reaches hnil [] [] .start
  obtain ⟨fuel, -, hrun⟩ := hreach _ (Nat.le_refl _)
  refine ⟨us, ?_, hus⟩
  unfold Lexer.lex
  rw [htext.dropMark]
  change (Lexer.Scan.mk [] [] .start text.toList).run (text.toList.length + 1) = _
  rw [hrun, Lexer.Scan.run_succ]
  have hstep : (Lexer.Scan.mk [] (us.reverse ++ []) pos ds).step = .ends (.ok us) := by
    unfold Lexer.Scan.step
    dsimp only
    rw [hds.skip_nil, List.append_nil]
    change Lexer.Turn.ends (.ok us.reverse.reverse) = _
    rw [List.reverse_reverse]
  rw [hstep]

end WrapperGen.Source
