import WrapperGen.Proofs.Source.Characters
import WrapperGen.Proofs.Unplaced.Items
/-!
# Comments in front of a text

`File.parse_behind_comment`: a comment line in front of a source does not change its items. It moves
what follows, so that the tokens of the two texts differ in their places, and these do not matter
for what they are read as. The lexer is taken apart into turns for this: a turn reads one token
behind what is skipped (`Scan.step`), and two scans that skip to the same text go on alike
(`Scan.step_alike`, `Scan.run_alike`).
-/

namespace WrapperGen.Source

open Tree Reading

namespace Lexer

/-! ## Blanks and comments -/

theorem startsWith_iff {lead : String} {cs : List Char} :
    startsWith lead cs = true ↔ ∃ rest, cs = lead.toList ++ rest := by
  simp only [startsWith, List.isPrefixOf_iff_prefix, List.IsPrefix]
  exact exists_congr fun _ => eq_comm

theorem splitLine_length (cs : List Char) : (splitLine cs).2.length ≤ cs.length := by
  fun_induction splitLine cs <;> grind

theorem splitLine_of_line {line : List Char} (hline : '\n' ∉ line) (rest : List Char) :
    (splitLine (line ++ '\n' :: rest)).2 = '\n' :: rest := by
  induction line with
  | nil => rfl
  | cons c line ih =>
    rw [List.mem_cons, not_or] at hline
    rw [List.cons_append, splitLine.eq_def]
    split
    · contradiction
    · grind
    · -- a carriage return at the end of the line goes with it
      cases line <;> grind
    · grind

theorem skipBlock_length {depth : Nat} {cs rest : List Char} (h : skipBlock depth cs = some rest) :
    rest.length < cs.length := by
  fun_induction skipBlock depth cs <;> grind

theorem blockComment?_length {cs rest : List Char} (h : blockComment? cs = some rest) :
    rest.length < cs.length := by
  unfold blockComment? at h
  split at h
  · exact skipBlock_length h
  · cases h

/-- Every turn leaves less of the text, so more turns than characters are enough. -/
theorem skipBlanks_more {fuel : Nat} {cs : List Char} (h : cs.length < fuel) (more : Nat) :
    skipBlanks (fuel + more) cs = skipBlanks fuel cs := by
  induction fuel generalizing cs with
  | zero => exact absurd h (Nat.not_lt_zero _)
  | succ fuel ih =>
    have hbehind {rest : List Char} (hrest : rest.length < cs.length) :
        skipBlanks (fuel + more) rest = skipBlanks fuel rest := ih (by omega)
    rw [Nat.succ_add]
    unfold skipBlanks
    split
    · rename_i hline
      apply hbehind
      simp only [Bool.and_eq_true] at hline
      obtain ⟨rest, rfl⟩ := startsWith_iff.1 hline.1.1
      have := splitLine_length ('/' :: rest)
      change (splitLine ('/' :: rest)).2.length < (rest.length + 1) + 1
      grind
    · split
      · rename_i hempty
        apply hbehind
        obtain ⟨rest, rfl⟩ := startsWith_iff.1 hempty
        simp only [List.drop_append, List.length_append]
        simp
      · split
        · cases hblock : blockComment? cs with
          | none => rfl
          | some rest => exact hbehind (blockComment?_length hblock)
        · cases cs with
          | nil => rfl
          | cons c r => exact if_congr Iff.rfl (hbehind (by simp)) rfl

/-- The text from its first token on. -/
def skip (cs : List Char) : List Char := skipBlanks (cs.length + 1) cs

theorem skipBlanks_eq_skip {fuel : Nat} {cs : List Char} (h : cs.length < fuel) :
    skipBlanks fuel cs = skip cs := by
  obtain ⟨more, rfl⟩ := Nat.exists_eq_add_of_le h
  exact skipBlanks_more (Nat.lt_succ_self _) more

theorem skip_blank {c : Char} (hc : isBlank c = true) (cs : List Char) :
    skip (c :: cs) = skip cs := by
  have hslash : '/' ≠ c := by
    rintro rfl
    exact absurd hc (by decide)
  have hlead (lead : String) (hlead : lead.toList.head? = some '/') :
      startsWith lead (c :: cs) = false := by
    rw [← Bool.not_eq_true, startsWith_iff]
    rintro ⟨rest, heq⟩
    obtain ⟨tail, htail⟩ := List.head?_eq_some_iff.1 hlead
    rw [htail] at heq
    cases heq
    exact hslash rfl
  unfold skip
  rw [skipBlanks.eq_def]
  simp [hlead "//" rfl, hlead "/**/" rfl, hlead "/*" rfl, hc]

/-- The blank tells the comment from a documentation comment. -/
theorem skip_comment {line : List Char} (hline : '\n' ∉ line) (cs : List Char) :
    skip ("// ".toList ++ line ++ '\n' :: cs) = skip cs := by
  have hstart : skip ("// ".toList ++ line ++ '\n' :: cs) =
      skipBlanks ("// ".toList ++ line ++ '\n' :: cs).length
        (splitLine ("// ".toList ++ line ++ '\n' :: cs)).2 := rfl
  have hrest : (splitLine ("// ".toList ++ line ++ '\n' :: cs)).2 = '\n' :: cs :=
    splitLine_of_line (by simp [hline]) cs
  have hlength : ('\n' :: cs).length < ("// ".toList ++ line ++ '\n' :: cs).length := by
    simp
    omega
  rw [hstart, hrest, skipBlanks_eq_skip hlength]
  exact skip_blank (by decide) cs

/-! ## Turns -/

/-- How far the text is read: the open brackets, the trees of the innermost one, last first, the
place, and the text from there on. -/
structure Scan where
  stack : List Frame
  done : List Tree
  pos : Pos
  rest : List Char

/-- What reading one token leads to. -/
inductive Turn
  | ends (result : Except Pos (List Tree))
  | goes (s : Scan)

namespace Scan

/-- What follows at a token. -/
def stepAt (stack : List Frame) (done : List Tree) (pos : Pos) (rest : List Char) : Turn :=
  match docComment? rest with
  | some (text, inner, after) =>
    let lexeme := consumed rest after
    let trees := docTrees text inner pos (pos.advance lexeme.dropLast)
    .goes ⟨stack, trees.reverse ++ done, pos.advance lexeme, after⟩
  | none =>
    match rest with
    | [] =>
      match stack with
      | [] => .ends (.ok done.reverse)
      | f :: _ => .ends (.error f.pos)
    | c :: r =>
      match Delim.ofOpening? c with
      | some d => .goes ⟨⟨pos, d, done⟩ :: stack, [], pos.next c, r⟩
      | none =>
        match Delim.ofClosing? c with
        | some d =>
          match stack with
          | [] => .ends (.error pos)
          | f :: stack =>
            if f.delim = d then
              .goes ⟨stack, .group d done.reverse f.pos pos :: f.before, pos.next c, r⟩
            else .ends (.error pos)
        | none =>
          match leaf? rest with
          | some (t, after) =>
            .goes ⟨stack, .leaf t pos :: done, pos.advance (consumed rest after), after⟩
          | none => .ends (.error pos)

def step (s : Scan) : Turn :=
  stepAt s.stack s.done (s.pos.advance (consumed s.rest (skip s.rest))) (skip s.rest)

/-- What is read to the end. -/
def run (fuel : Nat) (s : Scan) : Except Pos (List Tree) :=
  lexFrom fuel s.stack s.done s.pos s.rest

theorem run_succ (fuel : Nat) (s : Scan) :
    s.run (fuel + 1) =
      match s.step with
      | .ends result => result
      | .goes s' => s'.run fuel := by
  obtain ⟨stack, done, pos, cs⟩ := s
  simp only [run, step, stepAt, skip, lexFrom]
  generalize pos.advance (consumed cs _) = pos
  generalize skipBlanks (cs.length + 1) cs = rest
  cases docComment? rest with
  | some f => rfl
  | none =>
    cases rest with
    | nil => cases stack <;> rfl
    | cons c r =>
      dsimp only
      cases Delim.ofOpening? c with
      | some d => rfl
      | none =>
        dsimp only
        cases Delim.ofClosing? c with
        | none =>
          dsimp only
          cases leaf? (c :: r) <;> rfl
        | some d =>
          cases stack with
          | nil => rfl
          | cons f stack =>
            dsimp only
            split <;> rfl

/-- More turns change nothing about an end that was reached. -/
theorem run_more {fuel : Nat} {s : Scan} {ts : List Tree} (h : s.run fuel = .ok ts) (more : Nat) :
    s.run (fuel + more) = .ok ts := by
  induction fuel generalizing s with
  | zero => cases h
  | succ fuel ih =>
    rw [Nat.succ_add, run_succ]
    rw [run_succ] at h
    cases hstep : s.step with
    | ends result => rwa [hstep] at h
    | goes s' =>
      rw [hstep] at h
      exact ih h

end Scan

/-! ## Places of tokens -/

theorem docTrees_unplaced (text : List Char) (inner : Bool) (pos closed : Pos) :
    allUnplaced (docTrees text inner pos closed) = docTrees text inner .start .start := by
  cases inner <;> rfl

/-- The trees that were read, without places. -/
def unplacedTrees (result : Except Pos (List Tree)) : Option (List Tree) :=
  result.toOption.map allUnplaced

/-- The same open bracket, up to places. -/
structure Frame.Alike (f g : Frame) : Prop where
  delim : f.delim = g.delim
  before : allUnplaced f.before = allUnplaced g.before

/-- The same is behind both and in front of both, up to places and to what is skipped. -/
structure Scan.Alike (s t : Scan) : Prop where
  stack : List.Forall₂ Frame.Alike s.stack t.stack
  done : allUnplaced s.done = allUnplaced t.done
  rest : skip s.rest = skip t.rest

inductive Turn.Alike : Turn → Turn → Prop
  | ends {r r' : Except Pos (List Tree)} (h : unplacedTrees r = unplacedTrees r') :
      Turn.Alike (.ends r) (.ends r')
  | goes {s t : Scan} (h : s.Alike t) : Turn.Alike (.goes s) (.goes t)

namespace Scan

variable {s t : Scan}

theorem stepAt_alike {stack stack' : List Frame} {done done' : List Tree}
    (hopen : List.Forall₂ Frame.Alike stack stack') (hdone : allUnplaced done = allUnplaced done')
    (pos pos' : Pos) (rest : List Char) :
    (stepAt stack done pos rest).Alike (stepAt stack' done' pos' rest) := by
  unfold stepAt
  cases docComment? rest with
  | some f =>
    obtain ⟨text, inner, after⟩ := f
    refine .goes ⟨hopen, ?_, rfl⟩
    simp only [allUnplaced_append, allUnplaced_reverse, docTrees_unplaced, hdone]
  | none =>
    cases rest with
    | nil =>
      cases hopen with
      | nil =>
        refine .ends ?_
        simp only [unplacedTrees, Except.toOption, Option.map_some, allUnplaced_reverse, hdone]
      | cons => exact .ends rfl
    | cons c r =>
      dsimp only
      cases Delim.ofOpening? c with
      | some d => exact .goes ⟨.cons ⟨rfl, hdone⟩ hopen, rfl, rfl⟩
      | none =>
        dsimp only
        cases Delim.ofClosing? c with
        | none =>
          dsimp only
          cases leaf? (c :: r) with
          | none => exact .ends rfl
          | some p =>
            refine .goes ⟨hopen, ?_, rfl⟩
            simp only [allUnplaced_cons, unplaced_leaf, hdone]
        | some d =>
          cases hopen with
          | nil => exact .ends rfl
          | cons hframe hopen =>
            dsimp only
            rw [hframe.delim]
            split
            · refine .goes ⟨hopen, ?_, rfl⟩
              simp only [allUnplaced_cons, unplaced_group, allUnplaced_reverse, hdone,
                hframe.before]
            · exact .ends rfl

theorem step_alike (h : s.Alike t) : s.step.Alike t.step := by
  unfold step
  rw [h.rest]
  exact stepAt_alike h.stack h.done _ _ _

theorem run_alike (fuel : Nat) (h : s.Alike t) :
    unplacedTrees (s.run fuel) = unplacedTrees (t.run fuel) := by
  induction fuel generalizing s t with
  | zero => rfl
  | succ fuel ih =>
    have hstep := step_alike h
    rw [run_succ, run_succ]
    generalize s.step = turn at hstep ⊢
    generalize t.step = turn' at hstep ⊢
    cases hstep with
    | ends h => exact h
    | goes h => exact ih h

end Scan

/-- What is skipped in front of a text moves its tokens and does nothing else. -/
theorem lexFrom_behind_skipped {cs cs' : List Char} {trees : List Tree}
    (hskip : skip cs' = skip cs) (hlength : cs.length ≤ cs'.length)
    (h : lexFrom (cs.length + 1) [] [] .start cs = .ok trees) :
    ∃ trees', lexFrom (cs'.length + 1) [] [] .start cs' = .ok trees' ∧
      allUnplaced trees' = allUnplaced trees := by
  obtain ⟨more, hmore⟩ := Nat.exists_eq_add_of_le (Nat.succ_le_succ hlength)
  have hrun : (Scan.mk [] [] .start cs).run (cs'.length + 1) = .ok trees := by
    rw [← Nat.succ_eq_add_one, hmore]
    exact Scan.run_more (s := ⟨[], [], .start, cs⟩) h more
  have halike : (Scan.mk [] [] .start cs').Alike (Scan.mk [] [] .start cs) := ⟨.nil, rfl, hskip⟩
  have hsame := Scan.run_alike (cs'.length + 1) halike
  rw [hrun] at hsame
  change unplacedTrees (lexFrom _ _ _ _ _) = some (allUnplaced trees) at hsame
  unfold unplacedTrees at hsame
  cases hread : lexFrom (cs'.length + 1) [] [] .start cs' with
  | error pos =>
    rw [hread] at hsame
    cases hsame
  | ok trees' =>
    rw [hread] at hsame
    exact ⟨trees', rfl, Option.some.inj hsame⟩

end Lexer

/-! ## Files -/

/-- What is read of trees is read of the same trees at other places. -/
theorem readTrees_of_unplaced {α : Type} {p : Grammar → Reader α} {f : α → α}
    (h : ∀ (g : Grammar) [g.IgnoresPlaces] (c : Cursor), p g c.unplaced = unplacedBy f (p g c))
    {ts ts' : List Tree} (hts : allUnplaced ts' = allUnplaced ts) {a : α}
    (ha : readTrees p ts = .ok a) : ∃ a', readTrees p ts' = .ok a' ∧ f a' = f a := by
  have hsame : unplacedResult f (readTrees p ts') = .ok (f a) := by
    rw [← readTrees_unplaced h, hts, readTrees_unplaced h, ha]
    rfl
  cases hread : readTrees p ts' with
  | error e =>
    rw [hread] at hsame
    cases hsame
  | ok a' =>
    rw [hread] at hsame
    exact ⟨a', rfl, Except.ok.inj hsame⟩

namespace File

/-- Begins with neither a byte order mark nor a line for the shell. -/
def BeginsPlainly (cs : List Char) : Prop :=
  cs.head? ≠ some '\ufeff' ∧ ∀ rest, cs ≠ '#' :: '!' :: rest

theorem dropMark_of_beginsPlainly {cs : List Char} (h : BeginsPlainly cs) :
    Lexer.dropMark cs = cs := by
  unfold Lexer.dropMark
  split
  · exact absurd rfl h.1
  · rfl

theorem dropShebang_of_beginsPlainly {cs : List Char} (h : BeginsPlainly cs) :
    dropShebang cs = cs := by
  unfold dropShebang
  split
  · exact absurd rfl (h.2 _)
  · rfl

/-- All of the text is read. -/
theorem lexChars_of_beginsPlainly {cs : List Char} (h : BeginsPlainly cs) :
    Lexer.lexChars (dropShebang (Lexer.dropMark cs)) =
      Lexer.lexFrom (cs.length + 1) [] [] .start cs := by
  rw [dropMark_of_beginsPlainly h, dropShebang_of_beginsPlainly h, Lexer.lexChars,
    dropMark_of_beginsPlainly h]

/-- A comment line in front of a source, and an empty line behind it, move the source and do nothing
else. -/
theorem parse_behind_comment {line text : String} {file : File} (hline : '\n' ∉ line.toList)
    (htext : BeginsPlainly text.toList) (h : parse text = .ok file) :
    ∃ file', parse ("// " ++ line ++ "\n\n" ++ text) = .ok file' ∧
      file'.unplaced = file.unplaced := by
  have htoList : ("// " ++ line ++ "\n\n" ++ text).toList =
      "// ".toList ++ line.toList ++ '\n' :: '\n' :: text.toList := by
    simp
  have hplain : BeginsPlainly ("// ".toList ++ line.toList ++ '\n' :: '\n' :: text.toList) := by
    constructor <;> simp
  rw [parse_eq, parseChars, lexChars_of_beginsPlainly htext] at h
  cases hlex : Lexer.lexFrom (text.toList.length + 1) [] [] .start text.toList with
  | error pos =>
    rw [hlex] at h
    cases h
  | ok trees =>
    rw [hlex] at h
    have hskip : Lexer.skip ("// ".toList ++ line.toList ++ '\n' :: '\n' :: text.toList) =
        Lexer.skip text.toList := by
      rw [Lexer.skip_comment hline, Lexer.skip_blank (by decide)]
    have hlength : text.toList.length ≤
        ("// ".toList ++ line.toList ++ '\n' :: '\n' :: text.toList).length := by
      simp
      omega
    obtain ⟨trees', hlex', htrees⟩ := Lexer.lexFrom_behind_skipped hskip hlength hlex
    obtain ⟨file', hread, hfile⟩ := readTrees_of_unplaced File.reader_unplaced htrees h
    refine ⟨file', ?_, hfile⟩
    rw [parse_eq, parseChars, htoList, lexChars_of_beginsPlainly hplain, hlex']
    exact hread

end File

end WrapperGen.Source
