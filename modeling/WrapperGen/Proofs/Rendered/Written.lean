import WrapperGen.Proofs.Rendered.Tokens
import WrapperGen.Source.Render
/-!
# Trees written on one line

`Flat ts ls` says that the trees `ts` are the lexemes `ls`, one after the other, and that these may
be written in a type. `Writes ls cs` says that the characters `cs` are these lexemes with blanks
between them, where no word runs into what comes next. Trees are written so (`Flat.writes`), closing
the gaps around some signs keeps it that way (`Writes.compact`), and the lexer reads such a text as
the trees, up to their places and to which signs are joint (`Flat.lex`).
-/

namespace WrapperGen.Source

open Tree Lexer

/-! ## Lexemes -/

inductive Lexeme
  | word (token : Token) (text : String)
  | sign (c : Char) (joint : Bool)
  | opened (d : Delim)
  | closed (d : Delim)

namespace Lexeme

def chars : Lexeme → List Char
  | word _ text => text.toList
  | sign c _ => [c]
  | opened d => [d.opening]
  | closed d => [d.closing]

/-- Whether the lexeme may stand in a type. -/
def IsPlain : Lexeme → Prop
  | word token text => token.IsWord text
  | sign c _ => isSign c
  | opened d | closed d => d ≠ .brace

/-- What comes next does not run into the lexeme, and belongs to it if it is joint. -/
def Ends : Lexeme → List Char → Prop
  | word _ _, cs => stops cs
  | sign _ true, cs => cs.head?.any isSign
  | _, _ => True

end Lexeme

/-- The trees are the lexemes, which may all be written in a type. -/
inductive Flat : List Tree → List Lexeme → Prop
  | nil : Flat [] []
  | word {token : Token} {text : String} {pos : Pos} {ts : List Tree} {ls : List Lexeme}
      (h : token.IsWord text) (more : Flat ts ls) :
      Flat (.leaf token pos :: ts) (.word token text :: ls)
  | sign {c : Char} {joint : Bool} {pos : Pos} {ts : List Tree} {ls : List Lexeme} (hc : isSign c)
      (hjoint : joint = true → ∃ c' joint' ls', ls = .sign c' joint' :: ls') (more : Flat ts ls) :
      Flat (.leaf (.punct (String.singleton c) joint) pos :: ts) (.sign c joint :: ls)
  | group {d : Delim} {us ts : List Tree} {opened closed : Pos} {ks ls : List Lexeme}
      (hd : d ≠ .brace) (inside : Flat us ks) (more : Flat ts ls) :
      Flat (.group d us opened closed :: ts) (.opened d :: (ks ++ .closed d :: ls))

theorem Flat.append {ts us : List Tree} {ks ls : List Lexeme} (h : Flat ts ks) (h' : Flat us ls) :
    Flat (ts ++ us) (ks ++ ls) := by
  induction h with
  | nil => exact h'
  | word hword _ ih => exact .word hword ih
  | sign hc hjoint _ ih =>
    refine .sign hc (fun hj => ?_) ih
    obtain ⟨c', joint', ls', rfl⟩ := hjoint hj
    exact ⟨c', joint', ls' ++ ls, rfl⟩
  | group hd inside _ _ ih =>
    rw [List.cons_append, List.cons_append, List.append_assoc, List.cons_append]
    exact .group hd inside ih

/-! ## Texts of lexemes -/

/-- The characters are the lexemes, with blanks wherever none of them would be torn. -/
inductive Writes : List Lexeme → List Char → Prop
  | nil : Writes [] []
  | blank {ls : List Lexeme} {cs : List Char} (more : Writes ls cs) : Writes ls (' ' :: cs)
  | lexeme {l : Lexeme} {ls : List Lexeme} {cs : List Char} (plain : l.IsPlain) (ends : l.Ends cs)
      (more : Writes ls cs) : Writes (l :: ls) (l.chars ++ cs)

theorem stops_append {cs ds : List Char} (hcs : stops cs) (hds : stops ds) : stops (cs ++ ds) := by
  cases cs with
  | nil => exact hds
  | cons c cs => exact hcs

theorem Lexeme.Ends.append {l : Lexeme} {cs ds : List Char} (h : l.Ends cs) (hds : stops ds) :
    l.Ends (cs ++ ds) := by
  cases l with
  | word => exact stops_append h hds
  | sign c joint =>
    cases joint with
    | false => trivial
    | true =>
      cases cs with
      | nil => cases h
      | cons c cs => exact h
  | opened | closed => trivial

theorem Writes.append {ks ls : List Lexeme} {cs ds : List Char} (h : Writes ks cs)
    (h' : Writes ls ds) (hds : stops ds) : Writes (ks ++ ls) (cs ++ ds) := by
  induction h with
  | nil => exact h'
  | blank _ ih => exact .blank ih
  | lexeme plain ends _ ih =>
    rw [List.append_assoc]
    exact .lexeme plain (ends.append hds) ih

/-! ## Trees on one line -/

/-- Whether nothing is written between the tree and the next one. -/
def Tree.isJoint : Tree → Bool
  | .leaf (.punct _ joint) _ => joint
  | _ => false

theorem showTrees_cons_cons (t u : Tree) (ts : List Tree) :
    (showTrees (t :: u :: ts)).toList =
      t.show.toList ++ ((if t.isJoint then [] else [' ']) ++ (showTrees (u :: ts)).toList) := by
  match t with
  | .leaf (.punct _ true) _ => simp [showTrees, Tree.isJoint]
  | .leaf (.punct _ false) _ | .leaf (.ident _) _ | .leaf (.lifetime _) _ | .leaf (.literal _) _
  | .group _ _ _ _ => simp [showTrees, Tree.isJoint]

/-- What comes after a tree that is not joint with it. -/
theorem showTrees_cons {t : Tree} {ts : List Tree} {ls : List Lexeme} (ht : t.isJoint = false)
    (h : Writes ls (showTrees ts).toList) :
    ∃ cs, (showTrees (t :: ts)).toList = t.show.toList ++ cs ∧ Writes ls cs ∧ stops cs := by
  cases ts with
  | nil => exact ⟨[], by rw [showTrees]; simp, h, nofun⟩
  | cons u ts =>
    refine ⟨' ' :: (showTrees (u :: ts)).toList, ?_, .blank h, by simp [stops, isStop]⟩
    rw [showTrees_cons_cons, ht]
    rfl

theorem showTrees_front (t : Tree) (ts : List Tree) :
    ∃ cs, (showTrees (t :: ts)).toList = t.show.toList ++ cs := by
  cases ts with
  | nil => exact ⟨[], by rw [showTrees]; simp⟩
  | cons u ts => exact ⟨_, showTrees_cons_cons t u ts⟩

theorem Flat.writes {ts : List Tree} {ls : List Lexeme} (h : Flat ts ls) :
    Writes ls (showTrees ts).toList := by
  induction h with
  | nil => exact .nil
  | @word token text pos ts ls hword _ ih =>
    have hshow : (Tree.leaf token pos).show = text := by cases hword <;> rw [Tree.show]
    have hjoint : (Tree.leaf token pos).isJoint = false := by cases hword <;> rfl
    obtain ⟨cs, heq, hcs, hstop⟩ := showTrees_cons hjoint ih
    rw [heq, hshow]
    exact .lexeme (l := .word token text) hword hstop hcs
  | @sign c joint pos ts ls hc hjoint hmore ih =>
    have hshow : (Tree.leaf (.punct (String.singleton c) joint) pos).show.toList = [c] := by
      rw [Tree.show]
      simp
    cases joint with
    | false =>
      obtain ⟨cs, heq, hcs, -⟩ :=
        showTrees_cons (t := .leaf (.punct (String.singleton c) false) pos) rfl ih
      rw [heq, hshow]
      exact .lexeme (l := .sign c false) hc trivial hcs
    | true =>
      obtain ⟨c', joint', ls', rfl⟩ := hjoint rfl
      cases hmore with
      | @sign _ _ pos' us _ hc' =>
        obtain ⟨cs, hcs⟩ := showTrees_front (.leaf (.punct (String.singleton c') joint') pos') us
        rw [showTrees_cons_cons, hshow]
        refine .lexeme (l := .sign c true) hc ?_ ih
        rw [hcs, Tree.show]
        simpa [Lexeme.Ends, Tree.isJoint] using hc'
  | @group d us ts opened closed ks ls hd hinside _ ihinside ih =>
    obtain ⟨cs, heq, hcs, -⟩ := showTrees_cons (t := .group d us opened closed) rfl ih
    have hshow : (Tree.group d us opened closed).show.toList =
        d.opening :: ((showTrees us).toList ++ [d.closing]) := by
      cases d with
      | brace => exact absurd rfl hd
      | paren | bracket => simp [Tree.show, Delim.opening, Delim.closing]
    have hclosed : Writes (.closed d :: ls) (d.closing :: cs) := .lexeme hd trivial hcs
    have hstop : stops (d.closing :: cs) := by
      cases d with
      | brace => exact absurd rfl hd
      | paren | bracket => rintro c ⟨⟩; rfl
    have hinner := ihinside.append hclosed hstop
    rw [heq, hshow, List.cons_append, List.append_assoc]
    exact .lexeme (l := .opened d) hd trivial hinner

/-! ## Closing gaps -/

/-- Some of the blanks next to a tight character are left out. `p` is the character in front. -/
inductive Closes : Option Char → List Char → List Char → Prop
  | nil {p : Option Char} : Closes p [] []
  | keep {p : Option Char} {c : Char} {cs ds : List Char} (more : Closes (some c) cs ds) :
      Closes p (c :: cs) (c :: ds)
  | drop {p : Option Char} {cs ds : List Char} (tight : p.any isTight ∨ cs.head?.any isTight)
      (more : Closes p cs ds) : Closes p (' ' :: cs) ds

namespace Closes

variable {p : Option Char} {c : Char} {cs ds : List Char}

/-- Only blanks are left out. -/
theorem kept (hc : c ≠ ' ') (h : Closes p (c :: cs) ds) :
    ∃ ds', ds = c :: ds' ∧ Closes (some c) cs ds' := by
  cases h with
  | keep more => exact ⟨_, rfl, more⟩
  | drop => exact absurd rfl hc

theorem kept_append {word : List Char} (hword : ∀ c ∈ word, c ≠ ' ') (h : Closes p (word ++ cs) ds) :
    ∃ ds', ds = word ++ ds' ∧ Closes (word.getLast?.or p) cs ds' := by
  induction word generalizing p ds with
  | nil => exact ⟨ds, rfl, h⟩
  | cons c word ih =>
    obtain ⟨ds', rfl, hfirst⟩ := kept (hword c (.head _)) h
    obtain ⟨es, rfl, hmore⟩ := ih (fun d hd => hword d (.tail _ hd)) hfirst
    refine ⟨es, rfl, ?_⟩
    cases word with
    | nil => exact hmore
    | cons d word => simpa [List.getLast?_cons] using hmore

/-- A word goes on no further if the gap behind it is closed. -/
theorem stops (hp : p.any isTight = false) (hcs : Source.stops cs) (h : Closes p cs ds) :
    Source.stops ds := by
  cases h with
  | nil => exact hcs
  | keep => exact hcs
  | @drop _ cs _ tight more =>
    obtain ⟨c, cs, rfl, hc⟩ : ∃ c cs', cs = c :: cs' ∧ isTight c := by
      cases cs with
      | nil => simp [hp] at tight
      | cons c cs => exact ⟨c, cs, rfl, by simpa [hp] using tight⟩
    have hblank : c ≠ ' ' := by
      rintro rfl
      cases hc
    obtain ⟨ds', rfl, -⟩ := more.kept hblank
    rintro d ⟨⟩
    simp [isStop, hc]

end Closes

theorem Writes.closes {ls : List Lexeme} {cs : List Char} (h : Writes ls cs) {p : Option Char}
    {ds : List Char} (hclosed : Closes p cs ds) : Writes ls ds := by
  induction h generalizing p ds with
  | nil =>
    cases hclosed
    exact .nil
  | blank _ ih =>
    cases hclosed with
    | keep more => exact .blank (ih more)
    | drop _ more => exact ih more
  | @lexeme l ls cs plain ends _ ih =>
    have hchars : ∀ c ∈ l.chars, c ≠ ' ' := by
      cases l with
      | word token text => exact fun c hc => (plain.chars.2 c hc).1
      | sign c joint =>
        rintro d hd rfl
        cases List.mem_singleton.1 hd
        cases plain
      | opened d | closed d =>
        rintro c hc rfl
        cases d <;> exact absurd hc (by decide)
    obtain ⟨es, rfl, hmore⟩ := hclosed.kept_append hchars
    refine .lexeme plain ?_ (ih hmore)
    cases l with
    | opened | closed => trivial
    | word token text =>
      obtain ⟨hne, hno⟩ := plain.chars
      refine hmore.stops ?_ ends
      obtain ⟨c, hc⟩ := Option.ne_none_iff_exists'.1 (mt List.getLast?_eq_none_iff.1 hne)
      change (text.toList.getLast?.or p).any isTight = false
      rw [hc]
      exact (hno c (List.mem_of_getLast? hc)).2
    | sign c joint =>
      cases joint with
      | false => trivial
      | true =>
        cases cs with
        | nil => cases ends
        | cons d cs =>
          have hblank : d ≠ ' ' := by
            rintro rfl
            cases ends
          obtain ⟨es, rfl, -⟩ := hmore.kept hblank
          exact ends

/-! ## Replacing -/

theorem replaceFrom_skip (found by' : List Char) (skip : Nat) (cs : List Char) :
    Text.replaceFrom found by' skip cs = Text.replaceFrom found by' 0 (cs.drop skip) := by
  induction cs generalizing skip with
  | nil => cases skip <;> rfl
  | cons c cs ih =>
    cases skip with
    | zero => rfl
    | succ skip => exact ih skip

/-- A replacement closes gaps if each single one does. -/
theorem Closes.replaceFrom {found by' : List Char} (hne : found ≠ [])
    (hfound : ∀ p cs ds, (∀ q, Closes q cs ds) → Closes p (found ++ cs) (by' ++ ds)) (cs : List Char)
    (p : Option Char) : Closes p cs (Text.replaceFrom found by' 0 cs) := by
  induction h : cs.length using Nat.strong_induction_on generalizing cs p with
  | _ n ih =>
    subst h
    cases cs with
    | nil => exact .nil
    | cons c cs =>
      change Closes p (c :: cs) (if found.isPrefixOf (c :: cs) then _ else _)
      split
      · rename_i hprefix
        obtain ⟨rest, hrest⟩ := List.isPrefixOf_iff_prefix.1 hprefix
        obtain ⟨d, ds, rfl⟩ := List.exists_cons_of_ne_nil hne
        obtain ⟨rfl, rfl⟩ := List.cons.inj hrest
        rw [replaceFrom_skip]
        refine hfound p rest _ fun q => ?_
        have hdrop : (ds.append rest).drop ((d :: ds).length - 1) = rest := List.drop_left' rfl
        rw [hdrop]
        refine ih _ ?_ rest q rfl
        change rest.length < (ds ++ rest).length + 1
        rw [List.length_append]
        omega
      · exact .keep (ih _ (Nat.lt_succ_self _) cs _ rfl)

theorem Writes.replaceAll {ls : List Lexeme} {s : String} (h : Writes ls s.toList) (found by' : String)
    (hne : found.toList ≠ []) (hfound : ∀ p cs ds, (∀ q, Closes q cs ds) →
      Closes p (found.toList ++ cs) (by'.toList ++ ds)) :
    Writes ls (Text.replaceAll found by' s).toList := by
  rw [Text.replaceAll, String.toList_ofList]
  exact h.closes (Closes.replaceFrom hne hfound _ none)

/-- Closing the gaps around some signs leaves the text one of the same lexemes. -/
theorem Writes.compact {ls : List Lexeme} {s : String} (h : Writes ls s.toList) :
    Writes ls (compact s).toList := by
  have hless := h.replaceAll " < " "<" (by decide) fun p cs ds h =>
    .drop (.inr rfl) (.keep (.drop (.inl rfl) (h _)))
  have hgreater := hless.replaceAll " >" ">" (by decide) fun p cs ds h =>
    .drop (.inr rfl) (.keep (h _))
  have hopen := hgreater.replaceAll "< " "<" (by decide) fun p cs ds h =>
    .keep (.drop (.inl rfl) (h _))
  have hcomma := hopen.replaceAll " ," "," (by decide) fun p cs ds h =>
    .drop (.inr rfl) (.keep (h _))
  have hcolons := hcomma.replaceAll " :: " "::" (by decide) fun p cs ds h =>
    .drop (.inr rfl) (.keep (.keep (.drop (.inl rfl) (h _))))
  exact hcolons.replaceAll "& " "&" (by decide) fun p cs ds h =>
    .keep (.drop (.inl rfl) (h _))

end WrapperGen.Source
