import Mathlib.Data.List.Forall2
import WrapperGen.Proofs.Source.Reading
/-!
# Readers that go well

`Takes p ts us a`: the reader `p` takes what is in front of `us` off `ts` and gives `a`. It says that
`p` goes well and leaves nothing over in brackets, so a reader that takes all of a text reads it.

Tokens that are written next to each other are joint, whatever they were in the phrase that they
come from. `Spelled ts us` says that `us` are the tokens `ts`, where those that belong to one
operator are together and others may be.
-/

namespace WrapperGen.Source

open Tree

/-! ## Tokens as they are spelled -/

/-- The same tree at any place, with tokens that may have become joint. -/
inductive Tree.Spells : Tree → Tree → Prop
  | leaf {token : Token} {pos pos' : Pos} (word : ∀ text joint, token ≠ .punct text joint) :
      Spells (.leaf token pos) (.leaf token pos')
  | punct {text : String} {joint joint' : Bool} {pos pos' : Pos} (kept : joint = true → joint' = true) :
      Spells (.leaf (.punct text joint) pos) (.leaf (.punct text joint') pos')
  | group {delim : Delim} {ts us : List Tree} {opened closed opened' closed' : Pos}
      (inner : List.Forall₂ Spells ts us) :
      Spells (.group delim ts opened closed) (.group delim us opened' closed')

/-- The same trees at any places, with tokens that may have become joint. -/
abbrev Spelled : List Tree → List Tree → Prop := List.Forall₂ Tree.Spells

mutual
theorem Tree.Spells.refl (t : Tree) : t.Spells t :=
  match t with
  | .leaf (.punct _ _) _ => .punct id
  | .leaf (.ident _) _ | .leaf (.lifetime _) _ | .leaf (.literal _) _ =>
    .leaf fun _ _ h => Token.noConfusion h
  | .group _ ts _ _ => .group (Spelled.refl ts)
theorem Spelled.refl (ts : List Tree) : Spelled ts ts :=
  match ts with
  | [] => .nil
  | t :: ts => .cons (Tree.Spells.refl t) (Spelled.refl ts)
end

namespace Spelled

variable {ts us vs : List Tree}

theorem append_iff {xs ys : List Tree} :
    Spelled (xs ++ ys) us ↔ ∃ vs ws, us = vs ++ ws ∧ Spelled xs vs ∧ Spelled ys ws := by
  constructor
  · intro h
    induction xs generalizing us with
    | nil => exact ⟨[], us, rfl, .nil, h⟩
    | cons x xs ih =>
      cases h with
      | cons hx hxs =>
        obtain ⟨vs, ws, rfl, hvs, hws⟩ := ih hxs
        exact ⟨_ :: vs, ws, rfl, .cons hx hvs, hws⟩
  · rintro ⟨vs, ws, rfl, hvs, hws⟩
    exact List.rel_append hvs hws

theorem length_eq (h : Spelled ts us) : us.length = ts.length := (List.Forall₂.length_eq h).symm

theorem length_separated {α : Type} {T : α → List Tree} {as : List α} {sep : String}
    {trailing : Bool} (h : Spelled (separated sep trailing (as.map T)) us)
    (hne : ∀ a ∈ as, T a ≠ []) : as.length ≤ us.length := by
  rw [h.length_eq]
  exact length_le_separated hne

theorem word_iff {text : String} :
    Spelled (word text) us ↔ ∃ pos, us = [.leaf (.ident text) pos] := by
  constructor
  · rintro (_ | ⟨⟨⟩, ⟨⟩⟩)
    exact ⟨_, rfl⟩
  · rintro ⟨pos, rfl⟩
    exact .cons (.leaf fun _ _ h => by cases h) .nil

theorem tick_iff {name : String} :
    Spelled (tick name) us ↔ ∃ pos, us = [.leaf (.lifetime name) pos] := by
  constructor
  · rintro (_ | ⟨⟨⟩, ⟨⟩⟩)
    exact ⟨_, rfl⟩
  · rintro ⟨pos, rfl⟩
    exact .cons (.leaf fun _ _ h => by cases h) .nil

theorem lit_iff {text : String} :
    Spelled (lit text) us ↔ ∃ pos, us = [.leaf (.literal text) pos] := by
  constructor
  · rintro (_ | ⟨⟨⟩, ⟨⟩⟩)
    exact ⟨_, rfl⟩
  · rintro ⟨pos, rfl⟩
    exact .cons (.leaf fun _ _ h => by cases h) .nil

theorem within_iff {d : Delim} :
    Spelled (within d ts) us ↔
      ∃ vs opened closed, us = [.group d vs opened closed] ∧ Spelled ts vs := by
  constructor
  · rintro (_ | ⟨⟨⟩, ⟨⟩⟩)
    exact ⟨_, _, _, rfl, ‹_›⟩
  · rintro ⟨vs, opened, closed, rfl, h⟩
    exact .cons (.group h) .nil

/-- An operator of one character. -/
theorem sign {text : String} {c : Char} (htext : text.toList = [c]) (h : Spelled (op text) us) :
    ∃ joint pos, us = [.leaf (.punct text joint) pos] := by
  have hsingle : String.singleton c = text := String.toList_inj.1 (by simp [htext])
  have htrees : op text = [.leaf (.punct text false) noPos] := by
    rw [← hsingle]
    show Token.puncts false (String.singleton c).toList = _
    rw [hsingle, htext]
    simp [Token.puncts, hsingle]
  rw [htrees] at h
  rcases h with _ | ⟨hleaf, ⟨⟩⟩
  rcases hleaf with hword | hkept
  · exact absurd rfl (hword _ _)
  · exact ⟨_, _, rfl⟩

/-- An operator of two characters. -/
theorem two_signs {first last : String}
    (h : Spelled [.leaf (.punct first true) noPos, .leaf (.punct last false) noPos] us) :
    ∃ joint pos pos', us = [.leaf (.punct first true) pos, .leaf (.punct last joint) pos'] := by
  rcases h with _ | ⟨hfirst, _ | ⟨hlast, ⟨⟩⟩⟩
  rcases hfirst with hword | hkept
  · exact absurd rfl (hword _ _)
  rcases hlast with hword | hkept'
  · exact absurd rfl (hword _ _)
  cases hkept rfl
  exact ⟨_, _, _, rfl⟩

theorem colons (h : Spelled (op "::") us) :
    ∃ joint pos pos', us = [.leaf (.punct ":" true) pos, .leaf (.punct ":" joint) pos'] :=
  two_signs h

theorem arrow (h : Spelled (op "->") us) :
    ∃ joint pos pos', us = [.leaf (.punct "-" true) pos, .leaf (.punct ">" joint) pos'] :=
  two_signs h

/-- The first of several members, what separates it, and the others. -/
theorem separated_more {α : Type} {T : α → List Tree} {a b : α} {as : List α} {sep : String}
    {c : Char} {trailing : Bool} (hsep : sep.toList = [c])
    (h : Spelled (separated sep trailing ((a :: b :: as).map T)) us) :
    ∃ ts joint pos vs, us = ts ++ .leaf (.punct sep joint) pos :: vs ∧ Spelled (T a) ts ∧
      Spelled (separated sep trailing ((b :: as).map T)) vs := by
  obtain ⟨fs, vs, rfl, hfs, hvs⟩ := append_iff.1 h
  obtain ⟨ts, ss, rfl, hts, hss⟩ := append_iff.1 hfs
  obtain ⟨joint, pos, rfl⟩ := sign hsep hss
  exact ⟨ts, joint, pos, vs, by rw [List.append_assoc, List.singleton_append], hts, hvs⟩

end Spelled

/-! ## Readers -/

/-- The reader gives `a` and leaves `us` of `ts`, and nothing over in brackets. -/
def Takes {α : Type} (p : Reader α) (ts us : List Tree) (a : α) : Prop :=
  ∀ scope stray, p ⟨ts, scope, stray⟩ = .ok (a, ⟨us, scope, stray⟩)

namespace Takes

variable {α β : Type} {p : Reader α} {f : α → Reader β} {ts us vs : List Tree} {a : α} {b : β}

theorem pure : Takes (Pure.pure a) ts ts a := fun _ _ => rfl

theorem bind (h : Takes p ts us a) (hf : Takes (f a) us vs b) : Takes (p >>= f) ts vs b := by
  intro scope stray
  change (p ⟨ts, scope, stray⟩ >>= fun r => f r.1 r.2) = _
  rw [h scope stray]
  exact hf scope stray

theorem map (g : α → β) (h : Takes p ts us a) : Takes (g <$> p) ts us (g a) := by
  rw [map_eq_pure_bind]
  exact h.bind pure

theorem ifTrue {c : Bool} {q : Reader α} (hc : c = true) (h : Takes p ts us a) :
    Takes (if c then p else q) ts us a := by
  rwa [if_pos hc]

theorem ifFalse {c : Bool} {q : Reader α} (hc : c = false) (h : Takes q ts us a) :
    Takes (if c then p else q) ts us a := by
  rwa [if_neg (by simp [hc])]

theorem rest : Takes Reader.rest ts ts ts := fun _ _ => rfl

theorem test {go : List Tree → Bool} : Takes (Reader.test go) ts ts (go ts) := fun _ _ => rfl

/-- The place of the next tree is looked at for faults only. -/
theorem get {f : Cursor → Reader β} (hf : ∀ c : Cursor, c.rest = ts → Takes (f c) ts us b) :
    Takes (MonadState.get >>= f) ts us b := fun scope stray => hf ⟨ts, scope, stray⟩ rfl scope stray

theorem skip (n : Nat) : Takes (Reader.skip n) ts (ts.drop n) () := fun _ _ => rfl

/-! ## Tokens -/

theorem op {text : String} (h : peekOp text ts = true) :
    Takes (Reader.op text) ts (ts.drop text.length) (.op text) := fun _ _ => Reader.op_eq h

theorem op?_some {text : String} (h : peekOp text ts = true) :
    Takes (Reader.op? text) ts (ts.drop text.length) (some (.op text)) := by
  intro scope stray
  rw [Reader.op?_eq, if_pos h]

theorem op?_none {text : String} (h : peekOp text ts = false) :
    Takes (Reader.op? text) ts ts none := by
  intro scope stray
  rw [Reader.op?_eq, if_neg (by simp [h])]

theorem word {text : String} {pos : Pos} :
    Takes (Reader.word text) (.leaf (.ident text) pos :: us) us (.word text) :=
  test.bind (.ifTrue (by simp [peekWord]) ((skip 1).bind pure))

theorem word?_some {text : String} {pos : Pos} :
    Takes (Reader.word? text) (.leaf (.ident text) pos :: us) us (some (.word text)) :=
  test.bind (.ifTrue (by simp [peekWord]) (word.bind pure))

theorem word?_none {text : String} (h : peekWord text ts = false) :
    Takes (Reader.word? text) ts ts none :=
  test.bind (.ifFalse h pure)

theorem anyWord {text : String} {pos : Pos} :
    Takes Reader.anyWord (.leaf (.ident text) pos :: us) us text := fun _ _ => rfl

theorem name {text : String} {pos : Pos} (h : isName text) :
    Takes Reader.name (.leaf (.ident text) pos :: us) us text := by
  intro scope stray
  change (if isName text then _ else _ : Reader String) _ = _
  rw [if_pos h]
  rfl

theorem lifetime {text : String} {pos : Pos} :
    Takes Reader.lifetime (.leaf (.lifetime text) pos :: us) us text := fun _ _ => rfl

theorem lifetime?_some {text : String} {pos : Pos} :
    Takes Reader.lifetime? (.leaf (.lifetime text) pos :: us) us (some text) :=
  test.bind (.ifTrue rfl (lifetime.bind pure))

theorem lifetime?_none (h : peekLifetime ts = false) : Takes Reader.lifetime? ts ts none :=
  test.bind (.ifFalse h pure)

/-! ## Brackets -/

/-- A bracket is left behind if all in it is taken. -/
theorem within {d : Delim} {opened closed : Pos} (h : Takes p ts [] a) :
    Takes (Reader.within d p) (.group d ts opened closed :: us) us a := by
  intro scope stray
  unfold Reader.within
  change (if d = d then _ else _ : Reader α) _ = _
  rw [if_pos rfl]
  simp only [h closed stray]
  cases stray <;> rfl

/-- A reader that takes all of some trees reads them. -/
theorem run (h : Takes p ts [] a) : p.run ts = .ok a := by
  unfold Reader.run
  rw [h]
  rfl

end Takes

/-! ## Repetition -/

/-- Runs of `step` take `as`, one after the other, and the next run takes nothing. -/
inductive TakesAll {α : Type} (step : Reader (Option α)) : List Tree → List Tree → List α → Prop
  | stop {us : List Tree} (nothing : Takes step us us none) : TakesAll step us us []
  | step {ts us vs : List Tree} {a : α} {as : List α} (first : Takes step ts us (some a))
      (shorter : us.length < ts.length) (more : TakesAll step us vs as) :
      TakesAll step ts vs (a :: as)

namespace Takes

variable {α : Type} {step : Reader (Option α)} {item : Reader α} {go stop : List Tree → Bool}
  {ts us vs : List Tree} {a : α} {as : List α}

theorem loop {fuel : Nat} (h : TakesAll step ts us as) (hfuel : ts.length < fuel) :
    Takes (Reader.loop step fuel) ts us as := by
  induction h generalizing fuel with
  | stop nothing =>
    obtain ⟨fuel, rfl⟩ := Nat.exists_eq_add_one_of_ne_zero (Nat.ne_zero_of_lt hfuel)
    exact nothing.bind pure
  | step first shorter _ ih =>
    obtain ⟨fuel, rfl⟩ := Nat.exists_eq_add_one_of_ne_zero (Nat.ne_zero_of_lt hfuel)
    exact first.bind ((ih (by omega)).bind pure)

theorem many (h : TakesAll step ts us as) : Takes (Reader.many step) ts us as :=
  rest.bind (loop h (Nat.lt_succ_self _))

/-- One run of `manyWhile` where it goes on. -/
theorem goes (hgo : go ts = true) (h : Takes item ts us a) :
    Takes (do if ← Reader.test go then return some (← item) else return none) ts us (some a) :=
  test.bind (.ifTrue hgo (h.bind pure))

/-- One run of `manyWhile` where it ends. -/
theorem ends (hgo : go ts = false) :
    Takes (do if ← Reader.test go then return some (← item) else return none) ts ts none :=
  test.bind (.ifFalse hgo pure)

theorem manyWhile_nil (hgo : go ts = false) : Takes (Reader.manyWhile go item) ts ts [] :=
  many (.stop (ends hgo))

/-- What may come after an item of a list: the end of the list or a separator. -/
def Separates (stop : List Tree → Bool) (sep : String) (us : List Tree) : Prop :=
  stop us = true ∨ ∃ joint pos vs, us = .leaf (.punct sep joint) pos :: vs

/-- An item that is taken wherever it may stand in a list. -/
def TakesItem {α : Type} (stop : List Tree → Bool) (sep : String) (item : Reader α) (T : List Tree)
    (a : α) : Prop :=
  ∀ us vs, Spelled T us → Separates stop sep vs → stop (us ++ vs) = false ∧ Takes item (us ++ vs) vs a

variable {T : α → List Tree} {sep : String} {trailing : Bool}

theorem sepList {c : Char} (hsep : sep.toList = [c])
    (hgo : ∀ joint pos us, stop (.leaf (.punct sep joint) pos :: us) = false)
    (hitem : ∀ a ∈ as, TakesItem stop sep item (T a) a)
    (hus : Spelled (separated sep trailing (as.map T)) us) (hvs : stop vs = true) {fuel : Nat}
    (hfuel : as.length < fuel) :
    Takes (Reader.sepList stop item (do let _ ← Reader.op sep) fuel) (us ++ vs) vs
      (as, as.isEmpty || trailing) := by
  have htakesSep (joint : Bool) (pos : Pos) (ws : List Tree) :
      Takes (do let _ ← Reader.op sep) (.leaf (.punct sep joint) pos :: ws) ws () := by
    have hpeek : peekOp sep (.leaf (.punct sep joint) pos :: ws) = true := by
      unfold peekOp
      rw [hsep]
      simp [peekPunctChars, ← String.toList_inj, hsep]
    have hlength : sep.length = 1 := by rw [← String.length_toList, hsep]; rfl
    have hop := Takes.op hpeek
    rw [hlength] at hop
    exact hop.bind pure
  induction as generalizing us fuel with
  | nil =>
    obtain ⟨fuel, rfl⟩ := Nat.exists_eq_add_one_of_ne_zero (Nat.ne_zero_of_lt hfuel)
    cases hus
    exact test.bind (.ifTrue hvs pure)
  | cons a as ih =>
    obtain ⟨fuel, rfl⟩ := Nat.exists_eq_add_one_of_ne_zero (Nat.ne_zero_of_lt hfuel)
    have hmore (b : α) (hb : b ∈ as) := hitem b (.tail _ hb)
    have hfirst := hitem a (.head _)
    cases as with
    | nil =>
      obtain ⟨us, ws, rfl, ha, hws⟩ := Spelled.append_iff.1 hus
      cases trailing with
      | false =>
        cases hws
        rw [List.append_nil]
        obtain ⟨hbegins, htakes⟩ := hfirst us vs ha (.inl hvs)
        exact test.bind (.ifFalse hbegins (htakes.bind (test.bind (.ifTrue hvs pure))))
      | true =>
        obtain ⟨joint, pos, rfl⟩ := Spelled.sign hsep hws
        rw [List.append_assoc]
        obtain ⟨hbegins, htakes⟩ := hfirst us _ ha (.inr ⟨joint, pos, vs, rfl⟩)
        refine test.bind (.ifFalse hbegins (htakes.bind (test.bind (.ifFalse (hgo _ _ _) ?_))))
        exact (htakesSep joint pos vs).bind ((ih hmore .nil (by simpa using hfuel)).bind pure)
    | cons b as =>
      obtain ⟨us, joint, pos, ws, rfl, ha, hws⟩ := Spelled.separated_more hsep hus
      rw [List.append_assoc, List.cons_append]
      obtain ⟨hbegins, htakes⟩ := hfirst us _ ha (.inr ⟨joint, pos, ws ++ vs, rfl⟩)
      refine test.bind (.ifFalse hbegins (htakes.bind (test.bind (.ifFalse (hgo _ _ _) ?_))))
      exact (htakesSep joint pos (ws ++ vs)).bind
        ((ih hmore hws (by simpa using hfuel)).bind pure)

/-- A list with separators up to a place where `stop` holds. -/
theorem separatedUntil {c : Char} (hsep : sep.toList = [c])
    (hgo : ∀ joint pos us, stop (.leaf (.punct sep joint) pos :: us) = false)
    (hitem : ∀ a ∈ as, TakesItem stop sep item (T a) a) (hne : ∀ a ∈ as, T a ≠ [])
    (htrailing : as = [] → trailing = false)
    (hus : Spelled (separated sep trailing (as.map T)) us) (hvs : stop vs = true) :
    Takes (Reader.separatedUntil stop item sep) (us ++ vs) vs (as, trailing) := by
  have hlength : as.length ≤ us.length := hus.length_separated hne
  have hflag : ((as.isEmpty || trailing) && !as.isEmpty) = trailing := by
    cases as with
    | nil => rw [htrailing rfl]; rfl
    | cons a as => simp
  refine rest.bind ((sepList hsep hgo hitem hus hvs ?_).bind ?_)
  · rw [List.length_append]
    omega
  · show Takes (Pure.pure (as, (as.isEmpty || trailing) && !as.isEmpty)) vs vs _
    rw [hflag]
    exact pure

/-- Items with commas up to the end of a bracket. -/
theorem commaList (hitem : ∀ a ∈ as, TakesItem List.isEmpty "," item (T a) a)
    (hne : ∀ a ∈ as, T a ≠ []) (htrailing : as = [] → trailing = false)
    (hus : Spelled (separated "," trailing (as.map T)) us) :
    Takes (Reader.commaList item) us [] (as, trailing) := by
  have hend : ([] : List Tree).isEmpty = true := rfl
  have htakes := separatedUntil (c := ',') rfl (fun _ _ _ => rfl) hitem hne htrailing hus hend
  rwa [List.append_nil] at htakes

end Takes

end WrapperGen.Source
