import Mathlib.Data.List.Forall2
import WrapperGen.Proofs.Source.Names
/-!
# What readers make of known tokens

`Reads p ts us Q`: a reader `p` that goes well on `ts` stops at `us` with a result of which `Q`
holds. It does not say that `p` goes well, so no count of depths or of tokens is needed where a
reader may run out of either; and it does not say what was left over in brackets on the way. There
is one rule for each way readers are put together.
-/

namespace WrapperGen.Source

open Tree

/-! ## Operators and words among the trees to read -/

theorem peekPunctChars_puncts (cs : List Char) (us : List Tree) :
    peekPunctChars cs (Token.puncts false cs ++ us) = true := by
  induction cs with
  | nil => rfl
  | cons c cs ih =>
    cases cs with
    | nil => simp [Token.puncts, peekPunctChars]
    | cons d cs => simpa [Token.puncts, peekPunctChars] using ih

theorem length_puncts (joint : Bool) (cs : List Char) :
    (Token.puncts joint cs).length = cs.length := by
  induction cs with
  | nil => rfl
  | cons c cs ih =>
    cases cs with
    | nil => rfl
    | cons d cs => simpa [Token.puncts] using ih

theorem peekOp_op (text : String) (us : List Tree) : peekOp text (op text ++ us) = true :=
  peekPunctChars_puncts text.toList us

theorem drop_op (text : String) (us : List Tree) : (op text ++ us).drop text.length = us := by
  rw [← String.length_toList]
  exact List.drop_left' (length_puncts false text.toList)

theorem length_separated_ge {sep : String} {trailing : Bool} (ts : List (List Tree))
    (h : ∀ t ∈ ts, t ≠ []) : ts.length ≤ (separated sep trailing ts).length := by
  fun_induction separated sep trailing ts with
  | case1 => simp
  | case2 t =>
    have := List.length_pos_iff.2 (h t (.head _))
    simp only [List.length_append, List.length_singleton]
    omega
  | case3 t ts _ ih =>
    have := List.length_pos_iff.2 (h t (.head _))
    have := ih fun u hu => h u (.tail _ hu)
    simp only [List.length_append, List.length_cons]
    omega

/-- Of what is written with separators there is at least one token for each. -/
theorem length_le_separated {α : Type} {T : α → List Tree} {as : List α} {sep : String}
    {trailing : Bool} (hne : ∀ a ∈ as, T a ≠ []) :
    as.length ≤ (separated sep trailing (as.map T)).length := by
  rw [← List.length_map (f := T)]
  refine length_separated_ge _ fun t ht => ?_
  obtain ⟨a, ha, rfl⟩ := List.mem_map.1 ht
  exact hne a ha

/-- A name is none of the words that are not. -/
theorem isName_ne {text word : String} (h : isName text) (hword : word ∈ keywords) :
    text ≠ word := by
  rintro rfl
  simp [isName, hword] at h

theorem peekWord_name {text word : String} (us : List Tree) (h : isName text)
    (hword : word ∈ keywords) : peekWord word (Tree.word text ++ us) = false := by
  simpa [peekWord, Tree.word] using isName_ne h hword

theorem peekName_name {text : String} (us : List Tree) (h : isName text) :
    peekName (Tree.word text ++ us) = true := h

/-! ## Readers -/

/-- What `p` gives on `ts`, if it goes well, and where it stops. -/
def Reads {α : Type} (p : Reader α) (ts us : List Tree) (Q : α → Prop) : Prop :=
  ∀ ⦃scope stray a c⦄, p ⟨ts, scope, stray⟩ = .ok (a, c) → Q a ∧ c.rest = us

/-- What `p` gives on `ts`, if it goes well, wherever it stops. -/
def Gives {α : Type} (p : Reader α) (ts : List Tree) (Q : α → Prop) : Prop :=
  ∀ ⦃scope stray a c⦄, p ⟨ts, scope, stray⟩ = .ok (a, c) → Q a

namespace Reads

variable {α β : Type} {p : Reader α} {f : α → Reader β} {ts us vs : List Tree} {Q Q' : α → Prop}
  {R : β → Prop} {a : α}

theorem gives (h : Reads p ts us Q) : Gives p ts Q := fun _ _ _ _ hp => (h hp).1

theorem mono (h : Reads p ts us Q) (hQ : ∀ a, Q a → Q' a) : Reads p ts us Q' :=
  fun _ _ _ _ hp => (h hp).imp (hQ _) id

theorem pure (h : Q a) : Reads (Pure.pure a) ts ts Q := by
  intro scope stray b c hp
  cases hp
  exact ⟨h, rfl⟩

theorem bind (h : Reads p ts us Q) (hf : ∀ a, Q a → Reads (f a) us vs R) :
    Reads (p >>= f) ts vs R := by
  intro scope stray b c hp
  obtain ⟨a, d, hp, hb⟩ := Reader.bind_ok hp
  obtain ⟨hQ, hrest⟩ := h hp
  obtain ⟨rest, scope', stray'⟩ := d
  cases hrest
  exact hf a hQ hb

/-- The next reader goes on with a known result. -/
theorem andThen (h : Reads p ts us (· = a)) (hf : Reads (f a) us vs R) : Reads (p >>= f) ts vs R :=
  h.bind fun _ hb => hb ▸ hf

theorem map {g : α → β} (h : Reads p ts us fun a => R (g a)) : Reads (g <$> p) ts us R := by
  intro scope stray b c hp
  rw [map_eq_pure_bind] at hp
  exact (h.bind (f := fun a => Pure.pure (g a)) fun _ => Reads.pure) hp

theorem ifTrue {b : Bool} {q : Reader α} (hb : b = true) (h : Reads p ts us Q) :
    Reads (if b then p else q) ts us Q := by
  rwa [if_pos hb]

theorem ifFalse {b : Bool} {q : Reader α} (hb : b = false) (h : Reads q ts us Q) :
    Reads (if b then p else q) ts us Q := by
  rwa [if_neg (by simp [hb])]

/-- A reader that fails reads nothing. -/
theorem fails (h : ∀ c, ∃ e, p c = .error e) : Reads p ts us Q := by
  intro scope stray a c hp
  obtain ⟨e, he⟩ := h ⟨ts, scope, stray⟩
  rw [he] at hp
  cases hp

theorem failExpected {names : List String} :
    Reads (Reader.failExpected names : Reader α) ts us Q :=
  fails fun _ => ⟨_, rfl⟩

theorem failRule {text : String} : Reads (Reader.failRule text : Reader α) ts us Q :=
  fails fun _ => ⟨_, rfl⟩

theorem throw {e : SyntaxError} : Reads (MonadExcept.throw e : Reader α) ts us Q :=
  fails fun _ => ⟨_, rfl⟩

/-! ## Looking at what is left -/

theorem rest : Reads Reader.rest ts ts (· = ts) := by
  intro scope stray a c hp
  cases hp
  exact ⟨rfl, rfl⟩

theorem test {b : List Tree → Bool} : Reads (Reader.test b) ts ts (· = b ts) := by
  intro scope stray a c hp
  cases hp
  exact ⟨rfl, rfl⟩

theorem get : Reads (MonadState.get : Reader Cursor) ts ts fun c => c.rest = ts := by
  intro scope stray a c hp
  cases hp
  exact ⟨rfl, rfl⟩

/-- Looking ahead takes nothing, and what it finds is what would be read. -/
theorem ahead? (h : Reads p ts us Q) :
    Reads (Reader.ahead? p) ts ts fun r => ∀ a c, r = some (a, c) → Q a ∧ c.rest = us := by
  intro scope stray r c hp
  unfold Reader.ahead? at hp
  obtain ⟨d, _, hget, hp⟩ := Reader.bind_ok hp
  cases hget
  cases hahead : p ⟨ts, scope, stray⟩ with
  | error e =>
    simp only [hahead] at hp
    cases hp
    exact ⟨fun a c h => (by cases h), rfl⟩
  | ok r =>
    simp only [hahead] at hp
    cases hp
    refine ⟨fun a c heq => ?_, rfl⟩
    cases heq
    exact h hahead

/-- What goes well without looking at the brackets around is found ahead. -/
theorem ahead?_some (h : ∀ scope stray, p ⟨ts, scope, stray⟩ = .ok (a, ⟨us, scope, stray⟩)) :
    Reads (Reader.ahead? p) ts ts fun r => ∃ c : Cursor, r = some (a, c) ∧ c.rest = us := by
  intro scope stray r c hp
  unfold Reader.ahead? at hp
  obtain ⟨d, _, hget, hp⟩ := Reader.bind_ok hp
  cases hget
  rw [h] at hp
  cases hp
  exact ⟨⟨_, rfl, rfl⟩, rfl⟩

theorem set {c : Cursor} : Reads (MonadState.set c) ts c.rest fun _ => True := by
  intro scope stray a d hp
  cases hp
  exact ⟨trivial, rfl⟩

theorem skip (n : Nat) : Reads (Reader.skip n) ts (ts.drop n) fun _ => True := by
  intro scope stray a d hp
  cases hp
  exact ⟨trivial, rfl⟩

/-! ## Tokens -/

theorem op (text : String) : Reads (Reader.op text) (Tree.op text ++ us) us (· = .op text) := by
  intro scope stray a c hp
  rw [Reader.op_eq (peekOp_op text us)] at hp
  cases hp
  exact ⟨rfl, drop_op text us⟩

theorem op?_none {text : String} (h : peekOp text ts = false) :
    Reads (Reader.op? text) ts ts (· = none) := by
  intro scope stray a c hp
  rw [Reader.op?_eq, h] at hp
  cases hp
  exact ⟨rfl, rfl⟩

theorem op?_some (text : String) :
    Reads (Reader.op? text) (Tree.op text ++ us) us (· = some (.op text)) := by
  intro scope stray a c hp
  rw [Reader.op?_eq, peekOp_op] at hp
  cases hp
  exact ⟨rfl, drop_op text us⟩

/-- An operator that may be there. -/
theorem op?_when {text : String} {b : Bool} (h : peekOp text us = false) :
    Reads (Reader.op? text) (Tree.when b (Tree.op text) ++ us) us fun o => o.isSome = b := by
  cases b
  · exact (op?_none h).mono (by rintro _ rfl; rfl)
  · exact (op?_some text).mono (by rintro _ rfl; rfl)

theorem optOp_none {text : String} (h : peekOp text ts = false) :
    Reads (Reader.optOp text) ts ts (· = .absent) :=
  (op?_none h).andThen (.pure rfl)

theorem optOp_some (text : String) :
    Reads (Reader.optOp text) (Tree.op text ++ us) us (· = .op text) :=
  (op?_some text).andThen (.pure rfl)

theorem word (text : String) :
    Reads (Reader.word text) (Tree.word text ++ us) us (· = .word text) :=
  test.andThen (.ifTrue (by simp [peekWord, Tree.word]) ((skip 1).bind fun _ _ => .pure rfl))

theorem word?_none {text : String} (h : peekWord text ts = false) :
    Reads (Reader.word? text) ts ts (· = none) :=
  test.andThen (.ifFalse h (.pure rfl))

theorem word?_some (text : String) :
    Reads (Reader.word? text) (Tree.word text ++ us) us (· = some (.word text)) :=
  test.andThen (.ifTrue (by simp [peekWord, Tree.word]) ((word text).andThen (.pure rfl)))

/-- A keyword that may be there. -/
theorem word?_when {text : String} {b : Bool} (h : peekWord text us = false) :
    Reads (Reader.word? text) (Tree.when b (Tree.word text) ++ us) us fun o => o.isSome = b := by
  cases b
  · exact (word?_none h).mono (by rintro _ rfl; rfl)
  · exact (word?_some text).mono (by rintro _ rfl; rfl)

theorem optWord_none {text : String} (h : peekWord text ts = false) :
    Reads (Reader.optWord text) ts ts (· = .absent) :=
  (word?_none h).andThen (.pure rfl)

theorem optWord_some (text : String) :
    Reads (Reader.optWord text) (Tree.word text ++ us) us (· = .word text) :=
  (word?_some text).andThen (.pure rfl)

theorem optWord_when {text : String} {b : Bool} (h : peekWord text us = false) :
    Reads (Reader.optWord text) (Tree.when b (Tree.word text) ++ us) us
      (· = if b then .word text else .absent) := by
  cases b
  · exact optWord_none h
  · exact optWord_some text

theorem anyWord (text : String) :
    Reads Reader.anyWord (Tree.word text ++ us) us (· = text) := by
  intro scope stray a c hp
  cases hp
  exact ⟨rfl, rfl⟩

/-- A name is read as itself; another word is not read. -/
theorem name (text : String) :
    Reads Reader.name (Tree.word text ++ us) us fun a => a = text ∧ isName text := by
  intro scope stray a c hp
  obtain ⟨hname, pos, hrest⟩ := Reader.name_ok hp
  cases hrest
  exact ⟨⟨rfl, hname⟩, rfl⟩

theorem lifetime?_none (h : peekLifetime ts = false) :
    Reads Reader.lifetime? ts ts (· = none) :=
  test.andThen (.ifFalse h (.pure rfl))

/-! ## Brackets -/

/-- Brackets are left behind whatever in them was read. -/
theorem within_of {d : Delim} {opened closed : Pos} (h : Gives p ts Q) :
    Reads (Reader.within d p) (.group d ts opened closed :: vs) vs Q := by
  intro scope stray a c hp
  obtain ⟨_, _, _, _, hrest, hinner⟩ := Reader.within_ok hp
  cases hrest
  exact ⟨h hinner, rfl⟩

theorem within {d : Delim} {opened closed : Pos} (h : Reads p ts us Q) :
    Reads (Reader.within d p) (.group d ts opened closed :: vs) vs Q :=
  within_of h.gives

theorem run (h : Reads p ts us Q) (hp : p.run ts = .ok a) : Q a := by
  obtain ⟨c, hread⟩ := Reader.run_ok hp
  exact h.gives hread

end Reads

/-! ## Repetition -/

/-- What repeating `step` gives on `ts`, with a run left for each tree. -/
def Repeats {α : Type} (step : Reader (Option α)) (ts us : List Tree) (Q : List α → Prop) : Prop :=
  ∀ ⦃fuel⦄, ts.length < fuel → Reads (Reader.loop step fuel) ts us Q

namespace Repeats

variable {α : Type} {p : Reader (Option α)} {item : Reader α} {go : List Tree → Bool}
  {ts us vs : List Tree} {P : α → Prop} {Q : List α → Prop}

theorem stop (h : Reads p ts ts (· = none)) (hQ : Q []) : Repeats p ts ts Q := by
  intro fuel hfuel
  obtain ⟨fuel, rfl⟩ := Nat.exists_eq_add_one_of_ne_zero (Nat.ne_zero_of_lt hfuel)
  exact h.andThen (.pure hQ)

theorem step (h : Reads p ts us fun r => ∃ a, r = some a ∧ P a) (hlt : us.length < ts.length)
    (hrest : ∀ a, P a → Repeats p us vs Q) :
    Repeats p ts vs fun as => ∃ a bs, as = a :: bs ∧ P a ∧ Q bs := by
  intro fuel hfuel
  obtain ⟨fuel, rfl⟩ := Nat.exists_eq_add_one_of_ne_zero (Nat.ne_zero_of_lt hfuel)
  refine h.bind ?_
  rintro _ ⟨a, rfl, hP⟩
  exact (hrest a hP (by omega)).bind fun bs hQ => .pure ⟨a, bs, rfl, hP, hQ⟩

/-- A list that is read item by item up to `us`, each item before what is left of the list. -/
theorem forall₂ {β : Type} {T : β → List Tree} {R : β → α → Prop} {bs : List β}
    (hnil : Reads p us us (· = none))
    (hitem : ∀ b cs, b :: cs <:+ bs →
      Reads p (T b ++ (cs.flatMap T ++ us)) (cs.flatMap T ++ us) fun r => ∃ a, r = some a ∧ R b a)
    (hne : ∀ b ∈ bs, T b ≠ []) : Repeats p (bs.flatMap T ++ us) us (List.Forall₂ R bs) := by
  induction bs with
  | nil => exact .stop hnil .nil
  | cons b bs ih =>
    have htail : Repeats p (bs.flatMap T ++ us) us (List.Forall₂ R bs) :=
      ih (fun c cs hc => hitem c cs (hc.trans (List.suffix_cons b bs)))
        fun c hc => hne c (.tail _ hc)
    have hlt : (bs.flatMap T ++ us).length < (T b ++ (bs.flatMap T ++ us)).length := by
      have := List.length_pos_iff.2 (hne b (.head _))
      simp only [List.length_append]
      omega
    rw [List.flatMap_cons, List.append_assoc]
    intro fuel hfuel
    refine (step (hitem b bs List.suffix_rfl) hlt (fun _ _ => htail) hfuel).mono ?_
    rintro _ ⟨a, as, rfl, ha, has⟩
    exact .cons ha has

theorem items {T : α → List Tree} {as : List α} (hnil : Reads p us us (· = none))
    (hitem : ∀ a bs, a :: bs <:+ as →
      Reads p (T a ++ (bs.flatMap T ++ us)) (bs.flatMap T ++ us) (· = some a))
    (hne : ∀ a ∈ as, T a ≠ []) : Repeats p (as.flatMap T ++ us) us (· = as) := by
  intro fuel hfuel
  have hall := forall₂ (R := Eq) hnil (fun a bs h => (hitem a bs h).mono fun r hr => ⟨a, hr, rfl⟩)
    hne hfuel
  exact hall.mono fun bs h => (List.forall₂_eq_eq_eq ▸ h : as = bs).symm

end Repeats

namespace Reads

variable {α : Type} {item : Reader α} {go stop : List Tree → Bool} {ts us : List Tree}

theorem many {p : Reader (Option α)} {Q : List α → Prop} (h : Repeats p ts us Q) :
    Reads (Reader.many p) ts us Q :=
  rest.andThen (h (Nat.lt_succ_self _))

/-- One run of `manyWhile` where it goes on. -/
theorem goes {P : α → Prop} (hgo : go ts = true) (h : Reads item ts us P) :
    Reads (do if ← Reader.test go then return some (← item) else return none) ts us
      fun r => ∃ a, r = some a ∧ P a :=
  test.andThen (.ifTrue hgo (h.bind fun a ha => .pure ⟨a, rfl, ha⟩))

/-- One run of `manyWhile` where it ends. -/
theorem ends (hgo : go ts = false) :
    Reads (do if ← Reader.test go then return some (← item) else return none) ts ts (· = none) :=
  test.andThen (.ifFalse hgo (.pure rfl))

theorem manyWhile_nil (hgo : go ts = false) : Reads (Reader.manyWhile go item) ts ts (· = []) :=
  many (.stop (ends hgo) rfl)

/-- Two items and nothing else. -/
theorem manyWhile_two {P R : α → Prop} (hts : ts ≠ []) (hus : us ≠ [])
    (hfirst : Reads item (ts ++ us) us P) (hsecond : ∀ a, P a → Reads item us [] R) :
    Reads (Reader.manyWhile (!·.isEmpty) item) (ts ++ us) []
      fun as => ∃ a b, as = [a, b] ∧ P a ∧ R b := by
  have hlt : us.length < (ts ++ us).length := by simp [List.length_pos_iff.2 hts]
  refine .many fun fuel hfuel => (Repeats.step (.goes (by simp [hts]) hfirst) hlt
    (fun a ha => Repeats.step (.goes (by simp [hus]) (hsecond a ha)) (List.length_pos_iff.2 hus)
      fun _ _ => Repeats.stop (Q := (· = [])) (.ends rfl) rfl) hfuel).mono ?_
  rintro _ ⟨a, _, rfl, ha, b, _, rfl, hb, rfl⟩
  exact ⟨a, b, rfl, ha, hb⟩

/-- A list with separators: each item stands before a separator or before the end, where `F`
holds. -/
theorem sepList {T : α → List Tree} {sep : String} {F : List Tree → Prop} {as : List α}
    (hstop : stop us = true) (hus : F us) (hsep : ∀ vs, F (Tree.op sep ++ vs))
    (hgo : ∀ vs, stop (Tree.op sep ++ vs) = false)
    (hitem : ∀ a ∈ as, ∀ vs, F vs → stop (T a ++ vs) = false ∧ Reads item (T a ++ vs) vs (· = a))
    {fuel : Nat} (hfuel : as.length < fuel) :
    Reads (Reader.sepList stop item (do let _ ← Reader.op sep) fuel)
      (Tree.separated sep false (as.map T) ++ us) us
      fun r => r.1 = as ∧ (as ≠ [] → r.2 = false) := by
  induction as generalizing fuel with
  | nil =>
    obtain ⟨fuel, rfl⟩ := Nat.exists_eq_add_one_of_ne_zero (Nat.ne_zero_of_lt hfuel)
    exact test.andThen (.ifTrue hstop (.pure (by simp)))
  | cons a as ih =>
    obtain ⟨fuel, rfl⟩ := Nat.exists_eq_add_one_of_ne_zero (Nat.ne_zero_of_lt hfuel)
    cases as with
    | nil =>
      obtain ⟨hbegin, hread⟩ := hitem a (.head _) us hus
      have htrees : Tree.separated sep false ([a].map T) ++ us = T a ++ us := by
        simp [Tree.separated]
      rw [htrees]
      refine test.andThen (.ifFalse hbegin (hread.andThen ?_))
      exact test.andThen (.ifTrue hstop (.pure (by simp)))
    | cons b as =>
      have htrees : Tree.separated sep false ((a :: b :: as).map T) ++ us =
          T a ++ (Tree.op sep ++ (Tree.separated sep false ((b :: as).map T) ++ us)) := by
        simp [Tree.separated]
      rw [htrees]
      obtain ⟨hbegin, hread⟩ := hitem a (.head _) _ (hsep _)
      refine test.andThen (.ifFalse hbegin (hread.andThen ?_))
      refine test.andThen (.ifFalse (hgo _) ?_)
      refine Reads.bind (Q := fun _ => True) ((op sep).bind fun _ _ => .pure trivial) fun _ _ => ?_
      refine (ih (fun c hc => hitem c (.tail _ hc)) (by simpa using hfuel)).bind ?_
      rintro ⟨_, trailing⟩ ⟨rfl, htrailing⟩
      exact .pure (by simpa using htrailing)

/-- A list with separators up to a place where `stop` holds. -/
theorem separatedUntil {T : α → List Tree} {sep : String} {F : List Tree → Prop} {as : List α}
    (hstop : stop us = true) (hus : F us) (hsep : ∀ vs, F (Tree.op sep ++ vs))
    (hgo : ∀ vs, stop (Tree.op sep ++ vs) = false) (hne : ∀ a ∈ as, T a ≠ [])
    (hitem : ∀ a ∈ as, ∀ vs, F vs → stop (T a ++ vs) = false ∧ Reads item (T a ++ vs) vs (· = a)) :
    Reads (Reader.separatedUntil stop item sep) (Tree.separated sep false (as.map T) ++ us) us
      (· = (as, false)) := by
  have hfuel : as.length ≤ (Tree.separated sep false (as.map T)).length := length_le_separated hne
  refine rest.andThen ((sepList hstop hus hsep hgo hitem ?_).bind ?_)
  · rw [List.length_append]
    omega
  rintro ⟨bs, trailing⟩ ⟨hbs, htrailing⟩
  refine .pure ?_
  cases as with
  | nil => simp_all
  | cons a as => simp_all

/-- Items with commas up to the end of a bracket. -/
theorem commaList {T : α → List Tree} {F : List Tree → Prop} {as : List α}
    (hnil : F []) (hcomma : ∀ vs, F (Tree.op "," ++ vs))
    (hitem : ∀ a ∈ as, ∀ vs, F vs → T a ≠ [] ∧ Reads item (T a ++ vs) vs (· = a)) :
    Reads (Reader.commaList item) (Tree.separated "," false (as.map T)) [] (· = (as, false)) := by
  rw [← List.append_nil (Tree.separated "," false (as.map T))]
  exact separatedUntil rfl hnil hcomma (fun _ => rfl) (fun a ha => (hitem a ha [] hnil).1)
    fun a ha vs hvs => ⟨by simp [(hitem a ha vs hvs).1], (hitem a ha vs hvs).2⟩

end Reads

end WrapperGen.Source
