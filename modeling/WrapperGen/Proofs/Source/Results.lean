import WrapperGen.Source.Parse
/-!
# Results of readers

* What went on before a reader gave its result: in two readers one after the other (`bind_ok`), for
  words and brackets (`name_ok`, `within_ok`), and for what is read of a whole text (`readText_ok`).
* `Reader.Yields p Q`: whatever `p` reads, `Q` holds of the result. There is one rule for each way
  readers are put together.
-/

namespace WrapperGen.Source

namespace Reader

variable {α β : Type} {p : Reader α} {f : α → Reader β} {P Q : α → Prop} {R : β → Prop}
  {c c' : Cursor} {a : α} {text : String}

/-- A reader that goes on has read its first part. -/
theorem bind_ok {b : β} (h : (p >>= f) c = .ok (b, c')) :
    ∃ a d, p c = .ok (a, d) ∧ f a d = .ok (b, c') := by
  change (p c >>= fun (a, d) => f a d) = _ at h
  cases hp : p c with
  | error e => rw [hp] at h; cases h
  | ok r => rw [hp] at h; exact ⟨r.1, r.2, rfl, h⟩

/-- A word is taken from the front. -/
theorem anyWord_ok (h : anyWord c = .ok (text, c')) :
    ∃ pos, c.rest = .leaf (.ident text) pos :: c'.rest := by
  obtain ⟨rest, scope, stray⟩ := c
  rcases rest with _ | ⟨⟨⟨⟩, pos⟩ | _, ts⟩ <;> cases h
  exact ⟨pos, rfl⟩

/-- A name is a word that is no keyword. -/
theorem name_ok (h : name c = .ok (text, c')) :
    isName text ∧ ∃ pos, c.rest = .leaf (.ident text) pos :: c'.rest := by
  obtain ⟨rest, scope, stray⟩ := c
  unfold name at h
  obtain ⟨_, _, hget, h⟩ := bind_ok h
  cases hget
  rcases rest with _ | ⟨⟨⟨word⟩, pos⟩ | _, ts⟩
  case cons.leaf.ident =>
    by_cases hname : isName word
    · simp only [hname, if_true] at h
      cases h
      exact ⟨hname, pos, rfl⟩
    · simp only [hname] at h
      cases h
  all_goals cases h

/-- A bracket is left behind when its content was read. -/
theorem within_ok {d : Delim} (h : within d p c = .ok (a, c')) :
    ∃ ts opened closed inner, c.rest = .group d ts opened closed :: c'.rest ∧
      p ⟨ts, closed, c.stray⟩ = .ok (a, inner) := by
  obtain ⟨rest, scope, stray⟩ := c
  unfold within at h
  obtain ⟨_, _, hget, h⟩ := bind_ok h
  cases hget
  rcases rest with _ | ⟨_ | ⟨d', ts, opened, closed⟩, vs⟩
  case cons.group =>
    dsimp only at h
    split at h
    · rename_i hd
      subst hd
      cases hinner : p ⟨ts, closed, stray⟩ with
      | error e =>
        rw [hinner] at h
        cases h
      | ok r =>
        rw [hinner] at h
        cases h
        exact ⟨ts, opened, closed, _, rfl, hinner⟩
    · cases h
  all_goals cases h

theorem run_ok {ts : List Tree} (h : p.run ts = .ok a) :
    ∃ c, p ⟨ts, .start, none⟩ = .ok (a, c) := by
  unfold run at h
  split at h
  · cases h
  · rename_i c hp
    split at h
    · cases h
    · cases h
      exact ⟨c, hp⟩

/-- Whatever `p` reads, `Q` holds of the result. -/
def Yields {α : Type} (p : Reader α) (Q : α → Prop) : Prop :=
  ∀ ⦃c a c'⦄, p c = .ok (a, c') → Q a

namespace Yields

theorem pure (h : Q a) : Yields (Pure.pure a) Q := by
  intro c b c' hp
  cases hp
  exact h

theorem bind (h : Yields p P) (hf : ∀ a, P a → Yields (f a) R) : Yields (p >>= f) R := by
  intro c b c' hp
  obtain ⟨a, d, ha, hb⟩ := bind_ok hp
  exact hf a (h ha) hb

/-- The result does not depend on what was read before. -/
theorem after (hf : ∀ a, Yields (f a) R) : Yields (p >>= f) R := by
  intro c b c' hp
  obtain ⟨a, d, -, hb⟩ := bind_ok hp
  exact hf a hb

theorem ite {b : Bool} {q : Reader α} (hp : Yields p Q) (hq : Yields q Q) :
    Yields (if b then p else q) Q := by
  cases b
  · exact hq
  · exact hp

theorem failExpected {names : List String} : Yields (Reader.failExpected names : Reader α) Q := by
  intro c a c' hp
  cases hp

theorem name : Yields Reader.name fun n => isName n := fun _ _ _ hp => (name_ok hp).1

theorem within {d : Delim} (h : Yields p Q) : Yields (Reader.within d p) Q := by
  intro c a c' hp
  obtain ⟨_, _, _, _, -, hinner⟩ := within_ok hp
  exact h hinner

theorem loop {step : Reader (Option α)} (h : Yields step fun r => ∀ a, r = some a → Q a) :
    ∀ fuel, Yields (Reader.loop step fuel) fun as => ∀ a ∈ as, Q a
  | 0 => .pure fun _ ha => absurd ha List.not_mem_nil
  | fuel + 1 => h.bind fun r hr => by
    cases r with
    | none => exact .pure fun _ ha => absurd ha List.not_mem_nil
    | some a =>
      refine (loop h fuel).bind fun as has => .pure fun b hb => ?_
      rcases List.mem_cons.1 hb with rfl | hb
      · exact hr b rfl
      · exact has b hb

theorem manyWhile {go : List Tree → Bool} (h : Yields p Q) :
    Yields (Reader.manyWhile go p) fun as => ∀ a ∈ as, Q a := by
  refine .after fun ts => .loop (.after fun b => .ite (h.bind fun a ha => .pure ?_) (.pure ?_)) _
  · rintro _ ⟨⟩
    exact ha
  · rintro _ ⟨⟩

end Yields

end Reader

section

variable {α : Type} {p : Grammar → Reader α} {Q : α → Prop} {text : String} {a : α}

/-- What is read of a text was read of its trees. -/
theorem readText_ok (h : readText p text = .ok a) :
    ∃ trees c, Lexer.lex text = .ok trees ∧ p (.forTrees trees) ⟨trees, .start, none⟩ = .ok (a, c) := by
  unfold readText at h
  split at h
  · cases h
  · rename_i trees hlex
    obtain ⟨c, hp⟩ := Reader.run_ok h
    exact ⟨trees, c, hlex, hp⟩

theorem readText_yields (hread : readText p text = .ok a)
    (h : ∀ depth, Reader.Yields (p (.ofDepth depth)) Q) : Q a := by
  obtain ⟨trees, c, -, hp⟩ := readText_ok hread
  exact h _ hp

end

end WrapperGen.Source
