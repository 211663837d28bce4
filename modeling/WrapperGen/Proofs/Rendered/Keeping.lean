import WrapperGen.Proofs.Rendered.Phrases
import WrapperGen.Proofs.Source.Names
/-!
# What is read from a text

The words and lifetimes in the trees of a text are such by their characters (`Lexed`). From such
trees a reader leaves such trees, and `Reader.Keeps` says in addition what holds of its result;
there is one rule for each way to put readers together. Of the content of a bracket only the result
counts, as what is left in it is not read again (`Reader.Inside`).
-/

namespace WrapperGen.Source

/-! ## Trees of a text -/

def Token.isLexed : Token → Bool
  | .ident text => isWordText text
  | .lifetime text => isLifetimeText text
  | .literal _ | .punct _ _ => true

/-- The words and the lifetimes in the tree are such by their characters. -/
inductive Tree.IsLexed : Tree → Prop
  | leaf {t : Token} {pos : Pos} (h : t.isLexed) : IsLexed (.leaf t pos)
  | group {d : Delim} {ts : List Tree} {opened closed : Pos} (h : ∀ t ∈ ts, IsLexed t) :
    IsLexed (.group d ts opened closed)

def Lexed (ts : List Tree) : Prop := ∀ t ∈ ts, t.IsLexed

namespace Lexed

variable {t : Tree} {ts : List Tree}

theorem tail (h : Lexed (t :: ts)) : Lexed ts := fun u hu => h u (.tail _ hu)

theorem drop (h : Lexed ts) (n : Nat) : Lexed (ts.drop n) :=
  fun u hu => h u (List.mem_of_mem_drop hu)

theorem front {k : Token} {pos : Pos} (h : Lexed (.leaf k pos :: ts)) : k.isLexed := by
  cases h _ (.head _)
  assumption

theorem inside {d : Delim} {us : List Tree} {opened closed : Pos}
    (h : Lexed (.group d us opened closed :: ts)) : Lexed us := by
  cases h _ (.head _)
  assumption

end Lexed

namespace Lexer

theorem lifetime?_isLifetimeText {cs rest : List Char} (h : lifetime? cs = some rest) :
    isLifetimeText (String.ofList (consumed cs rest)) := by
  unfold lifetime? at h
  split at h
  · rename_i r
    obtain ⟨rest', hrest', h⟩ := Option.bind_eq_some_iff.1 h
    obtain rfl : rest' = rest := by
      split at h
      · cases h
      · split at h
        · cases h
          rfl
        · cases h
      · cases h
        rfl
    obtain ⟨word, rfl, hword⟩ := anyIdent?_consumed hrest'
    have hconsumed : consumed ('\'' :: (word ++ rest')) rest' = '\'' :: word :=
      consumed_append ('\'' :: word) rest'
    rw [hconsumed]
    simpa [isLifetimeText] using hword
  · cases h

theorem leaf?_isLexed {cs rest : List Char} {t : Token} (h : leaf? cs = some (t, rest)) :
    t.isLexed := by
  cases t with
  | ident text => simpa [Token.isLexed, isWordText] using leaf?_ident h
  | lifetime text =>
    unfold leaf? at h
    split at h
    · cases h
    · split at h
      · rename_i hlifetime
        cases h
        exact lifetime?_isLifetimeText hlifetime
      · split at h
        · split at h
          · cases h
          · obtain ⟨r, -, heq⟩ := Option.map_eq_some_iff.1 h
            cases heq
        · cases h
  | literal | punct => rfl

theorem holds_isLexed : Holds Tree.IsLexed where
  leaf _ _ _ h _ := .leaf (leaf?_isLexed h)
  doc text inner pos closed := by
    have hbody : ∀ t ∈ [Tree.leaf (.ident "doc") pos, .leaf (.op "=") pos,
        .leaf (.literal (quoteDoc text)) pos], t.IsLexed := by
      simp only [List.forall_mem_cons]
      exact ⟨.leaf (by decide), .leaf rfl, .leaf rfl, nofun⟩
    unfold docTrees
    simp only [List.cons_append, List.forall_mem_cons, List.forall_mem_append]
    refine ⟨.leaf rfl, ?_, .group hbody, nofun⟩
    cases inner
    · exact nofun
    · simp only [if_true, List.forall_mem_cons]
      exact ⟨.leaf rfl, nofun⟩
  group _ _ _ _ h := .group h

theorem lexed_lex {text : String} {trees : List Tree} (h : lex text = .ok trees) : Lexed trees :=
  holds_isLexed.lex h

end Lexer

/-! ## Readers -/

namespace Reader

/-- From trees of a text, here `ts`, the reader leaves such trees and gives what `P` holds of. -/
def Keeps {α : Type} (p : Reader α) (ts : List Tree) (P : α → Prop) : Prop :=
  Lexed ts → ∀ ⦃scope stray a c⦄, p ⟨ts, scope, stray⟩ = .ok (a, c) → Lexed c.rest ∧ P a

/-- From any trees of a text the reader gives what `P` holds of. -/
def Inside {α : Type} (p : Reader α) (P : α → Prop) : Prop :=
  ∀ ⦃ts⦄, Lexed ts → Gives p ts P

namespace Keeps

variable {α β : Type} {p q : Reader α} {f : α → Reader β} {ts : List Tree} {P Q : α → Prop}
  {R : β → Prop}

theorem imp (h : p.Keeps ts P) (hPQ : ∀ a, P a → Q a) : p.Keeps ts Q :=
  fun hts _ _ _ _ ha => ⟨(h hts ha).1, hPQ _ (h hts ha).2⟩

theorem pure {a : α} (h : P a) : Keeps (Pure.pure a) ts P := by
  rintro hts scope stray _ _ ⟨⟩
  exact ⟨hts, h⟩

theorem bind (h : p.Keeps ts P) (hf : ∀ a us, P a → (f a).Keeps us R) : (p >>= f).Keeps ts R := by
  intro hts scope stray b c hb
  obtain ⟨a, d, ha, hb⟩ := bind_ok hb
  exact hf a d.rest (h hts ha).2 (h hts ha).1 hb

/-- A known result is handed on. -/
theorem given {a : α} (h : (f a).Keeps ts R) : (Pure.pure a >>= f).Keeps ts R := h

theorem map (g : α → β) (h : p.Keeps ts fun a => R (g a)) : (g <$> p).Keeps ts R := by
  rw [map_eq_pure_bind]
  exact h.bind fun _ _ ha => .pure ha

theorem ite {b : Bool} (hp : b = true → p.Keeps ts P) (hq : b = false → q.Keeps ts P) :
    Keeps (if b then p else q) ts P := by
  cases b
  · exact hq rfl
  · exact hp rfl

theorem rest {f : List Tree → Reader β} (h : (f ts).Keeps ts R) :
    (Reader.rest >>= f).Keeps ts R := h

theorem test {go : List Tree → Bool} {f : Bool → Reader β} (h : (f (go ts)).Keeps ts R) :
    (Reader.test go >>= f).Keeps ts R := h

theorem get {f : Cursor → Reader β} (h : ∀ c : Cursor, c.rest = ts → (f c).Keeps ts R) :
    (MonadState.get >>= f).Keeps ts R :=
  fun hts scope stray _ _ hb => h ⟨ts, scope, stray⟩ rfl hts hb

theorem throws {e : SyntaxError} : Keeps (throw e : Reader α) ts P := nofun

theorem failExpected {names : List String} : Keeps (Reader.failExpected names : Reader α) ts P :=
  nofun

theorem failRule {text : String} : Keeps (Reader.failRule text : Reader α) ts P := nofun

/-! ### Tokens -/

theorem skip (n : Nat) : (Reader.skip n).Keeps ts fun _ => True := by
  rintro hts scope stray _ _ ⟨⟩
  exact ⟨hts.drop n, trivial⟩

theorem op {text : String} : (Reader.op text).Keeps ts fun _ => True :=
  .test (.ite (fun _ => (skip _).bind fun _ _ _ => .pure trivial) fun _ => .get fun _ _ => throws)

theorem word {text : String} : (Reader.word text).Keeps ts fun _ => True :=
  .test (.ite (fun _ => (skip 1).bind fun _ _ _ => .pure trivial) fun _ => failExpected)

/-- Either the operator is taken, or nothing. -/
theorem op? {text : String} {f : Option Node → Reader β}
    (hsome : ∀ n us, (f (some n)).Keeps us R) (hnone : (f none).Keeps ts R) :
    (Reader.op? text >>= f).Keeps ts R := by
  intro hts scope stray b c hb
  obtain ⟨r, d, hr, hb⟩ := bind_ok hb
  rw [op?_eq] at hr
  split at hr
  · cases hr
    exact hsome _ _ (hts.drop _) hb
  · cases hr
    exact hnone hts hb

theorem op?_any {text : String} : (Reader.op? text).Keeps ts fun _ => True :=
  .test (.ite (fun _ => op.bind fun _ _ _ => .pure trivial) fun _ => .pure trivial)

theorem word? {text : String} : (Reader.word? text).Keeps ts fun _ => True :=
  .test (.ite (fun _ => word.bind fun _ _ _ => .pure trivial) fun _ => .pure trivial)

theorem name : Reader.name.Keeps ts fun n => isName n ∧ isWordText n ∧ peekWord n ts := by
  intro hts scope stray n c h
  obtain ⟨hname, pos, hrest⟩ := name_ok h
  cases hrest
  exact ⟨hts.tail, hname, hts.front, beq_self_eq_true _⟩

theorem anyWord : Reader.anyWord.Keeps ts fun w => isWordText w ∧ peekWord w ts := by
  intro hts scope stray w c h
  obtain ⟨pos, hrest⟩ := anyWord_ok h
  cases hrest
  exact ⟨hts.tail, hts.front, beq_self_eq_true _⟩

theorem lifetime : Reader.lifetime.Keeps ts fun l => isLifetimeText l := by
  intro hts scope stray l c h
  unfold Reader.lifetime at h
  obtain ⟨_, _, hget, h⟩ := bind_ok h
  cases hget
  dsimp only at h
  split at h
  · cases h
    exact ⟨hts.tail, hts.front⟩
  · cases h

theorem lifetime? : Reader.lifetime?.Keeps ts fun r => ∀ l, r = some l → isLifetimeText l := by
  refine .test (.ite (fun _ => lifetime.bind fun l _ hl => .pure ?_) fun _ => .pure nofun)
  rintro _ ⟨⟩
  exact hl

theorem literal : Reader.literal.Keeps ts fun _ => True := by
  intro hts scope stray n c h
  unfold Reader.literal at h
  obtain ⟨_, _, hget, h⟩ := bind_ok h
  cases hget
  dsimp only at h
  split at h
  · cases h
    exact ⟨hts.tail, trivial⟩
  · split at h
    · cases h
      exact ⟨hts.tail, trivial⟩
    · cases h
  · split at h
    · cases h
      exact ⟨hts.drop 2, trivial⟩
    · cases h
  · cases h

theorem rawGroup : Reader.rawGroup.Keeps ts fun _ => True := by
  intro hts scope stray n c h
  unfold Reader.rawGroup at h
  obtain ⟨_, _, hget, h⟩ := bind_ok h
  cases hget
  dsimp only at h
  split at h
  · cases h
    exact ⟨hts.tail, trivial⟩
  · cases h

theorem takenSince (before : List Tree) : (Reader.takenSince before).Keeps ts fun _ => True :=
  .rest (.pure trivial)

/-! ### Brackets and repetition -/

theorem within {d : Delim} (h : p.Inside P) : (Reader.within d p).Keeps ts P := by
  intro hts scope stray a c ha
  obtain ⟨us, _, closed, _, hrest, hinner⟩ := within_ok ha
  cases hrest
  exact ⟨hts.tail, h hts.inside hinner⟩

theorem loop {step : Reader (Option α)} (h : ∀ us, step.Keeps us fun r => ∀ a, r = some a → P a)
    (fuel : Nat) : (Reader.loop step fuel).Keeps ts fun as => ∀ a ∈ as, P a := by
  induction fuel generalizing ts with
  | zero => exact .pure nofun
  | succ fuel ih =>
    refine (h ts).bind fun r us hr => ?_
    cases r with
    | none => exact .pure nofun
    | some a => exact ih.bind fun as _ has => .pure (List.forall_mem_cons.2 ⟨hr a rfl, has⟩)

theorem many {step : Reader (Option α)} (h : ∀ us, step.Keeps us fun r => ∀ a, r = some a → P a) :
    (Reader.many step).Keeps ts fun as => ∀ a ∈ as, P a := .rest (.loop h _)

theorem manyWhile {go : List Tree → Bool} (h : ∀ us, p.Keeps us P) :
    (Reader.manyWhile go p).Keeps ts fun as => ∀ a ∈ as, P a := by
  refine .many fun us => .test (.ite (fun _ => (h us).bind fun a _ ha => .pure ?_) fun _ => ?_)
  · rintro _ ⟨⟩
    exact ha
  · exact .pure nofun

theorem sepList {stop : List Tree → Bool} {sep : Reader Unit} (h : ∀ us, p.Keeps us P)
    (hsep : ∀ us, sep.Keeps us fun _ => True) (fuel : Nat) :
    (Reader.sepList stop p sep fuel).Keeps ts fun r => ∀ a ∈ r.1, P a := by
  induction fuel generalizing ts with
  | zero => exact .pure nofun
  | succ fuel ih =>
    refine .test (.ite (fun _ => .pure nofun) fun _ => (h ts).bind fun a us ha => ?_)
    refine .test (.ite (fun _ => .pure (List.forall_mem_singleton.2 ha)) fun _ => ?_)
    refine (hsep us).bind fun _ vs _ => ih.bind fun r _ hr => .pure ?_
    exact List.forall_mem_cons.2 ⟨ha, hr⟩

theorem separatedUntil {stop : List Tree → Bool} {sep : String} (h : ∀ us, p.Keeps us P) :
    (Reader.separatedUntil stop p sep).Keeps ts
      fun r => (∀ a ∈ r.1, P a) ∧ (r.1 = [] → r.2 = false) := by
  refine .rest ((sepList h (fun us => op.bind fun _ _ _ => .pure trivial) _).bind fun r _ hr => ?_)
  refine .pure ⟨hr, ?_⟩
  rintro (hnil : r.1 = [])
  simp [hnil]

theorem commaList (h : ∀ us, p.Keeps us P) :
    (Reader.commaList p).Keeps ts fun r => (∀ a ∈ r.1, P a) ∧ (r.1 = [] → r.2 = false) :=
  separatedUntil h

end Keeps

namespace Inside

variable {α : Type} {p : Reader α} {P : α → Prop}

theorem of (h : ∀ us, p.Keeps us P) : p.Inside P := fun us hus _ _ _ _ ha => (h us hus ha).2

theorem any : p.Inside fun _ => True := fun _ _ _ _ _ _ _ => trivial

end Inside

end Reader

/-- What is read from all of a text is what the reader gives. -/
theorem readText_keeps {α : Type} {p : Grammar → Reader α} {P : α → Prop}
    (h : ∀ g ts, (p (.ofDepth g)).Keeps ts P) {text : String} {a : α}
    (hread : readText p text = .ok a) : P a := by
  obtain ⟨trees, c, hlex, hp⟩ := readText_ok hread
  exact (h _ trees (Lexer.lexed_lex hlex) hp).2

end WrapperGen.Source
