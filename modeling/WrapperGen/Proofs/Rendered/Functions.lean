import WrapperGen.Proofs.Rendered.Types
/-!
# Spelled function types

A function pointer is taken off its tokens if the types of its parameters and of its result are. The
name of a parameter ends at a colon, so no type with colons in front may stand behind it.
-/

namespace WrapperGen.Source

open Tree Grammar

/-! ## Parameters -/

/-- Whether what stands for further parameters begins here. -/
def opensVariadic (ts : List Tree) : Bool :=
  peekOp "..." ts ||
    ((peekName ts || peekWord "_" ts) && peekOp ":" (ts.drop 1) && peekOp "..." (ts.drop 2))

/-- A parameter is taken off its tokens and begins neither an attribute nor what stands for further
parameters. -/
structure FnPointerParam.ReadsBack (p : FnPointerParam) : Prop where
  begins : ∀ ⦃us vs⦄, Spelled p.trees us → Takes.Separates List.isEmpty "," vs →
    (us ++ vs).isEmpty = false ∧ peekOp "#" (us ++ vs) = false ∧ opensVariadic (us ++ vs) = false
  takes : ∀ ⦃d first us vs⦄, sizes p.trees ≤ d → Spelled p.trees us →
    Takes.Separates List.isEmpty "," vs →
      Takes ((ofDepth d).fnPointerParam [] first) (us ++ vs) vs p

namespace FnPointerParam

variable {t : Ty}

theorem ReadsBack.trees_ne_nil {p : FnPointerParam} (h : p.ReadsBack) : p.trees ≠ [] := by
  intro hnil
  have hspelled : Spelled p.trees [] := by
    rw [hnil]
    exact .nil
  obtain ⟨hne, -⟩ := h.begins hspelled (show Takes.Separates List.isEmpty "," [] from .inl rfl)
  cases hne

theorem endsPhrase_of_separates {plus : Bool} {vs : List Tree}
    (h : Takes.Separates List.isEmpty "," vs) : endsPhrase plus vs := by
  rcases h with h | ⟨joint, pos, ws, rfl⟩
  · cases List.isEmpty_iff.1 h
    cases plus <;> rfl
  · exact endsPhrase_sign (by decide)

/-- Behind the first of two colons is the second, so no dots are. -/
theorem noDots_of_colons {ts : List Tree} (h : peekOp "::" ts = true) :
    peekOp "..." (ts.drop 1) = false := by
  change peekPunctChars [':', ':'] ts = true at h
  change peekPunctChars ['.', '.', '.'] (ts.drop 1) = false
  rw [peekPunctChars.eq_def] at h
  split at h
  · contradiction
  · rename_i heq
    cases heq
  · rename_i heq
    cases heq
    have hcolon := (Bool.and_eq_true_iff.1 h).2
    rw [List.drop_succ_cons, List.drop_zero, peekPunctChars.eq_def]
    split
    · contradiction
    · rename_i heq
      cases heq
    · rename_i heq
      cases heq
      obtain rfl := beq_iff_eq.1 hcolon
      rfl
    · rfl
  · cases h

/-- A type that is no name of a parameter is none of what stands for further ones either. -/
theorem opensVariadic_of_type {us : List Tree} (hbegins : BeginsType us)
    (hunnamed : opensParam us = false) : opensVariadic us = false := by
  unfold opensVariadic
  rw [hbegins.peekOp (c := '.') rfl (by decide), Bool.false_or]
  by_contra hsome
  simp only [Bool.not_eq_false, Bool.and_eq_true] at hsome
  obtain ⟨⟨hname, hcolon⟩, hdots⟩ := hsome
  have hcolons : peekOp "::" (us.drop 1) = true := by
    simp only [opensParam, hcolon, hname, Bool.true_or, Bool.true_and, Bool.not_eq_false'] at hunnamed
    exact hunnamed
  rw [← List.drop_drop (i := 1) (j := 1), noDots_of_colons hcolons] at hdots
  cases hdots

theorem readsBack_unnamed (ht : t.ReadsBack) : (FnPointerParam.mk [] none t).ReadsBack where
  begins us vs hus hvs := by
    have hbegins := ht.begins_spelled hus vs
    exact ⟨List.isEmpty_eq_false_iff.2 hbegins.ne_nil, hbegins.peekOp (c := '#') rfl (by decide),
      opensVariadic_of_type hbegins (ht.unnamed hus hvs)⟩
  takes d first us vs hd hus hvs := by
    have hbegins := ht.begins_spelled hus vs
    have hunnamed := ht.unnamed hus hvs
    have hmut : peekWord "mut" (us ++ vs) = false := hbegins.peekWord (by decide) (by decide)
    have htakes := ht.takes (d := d) hd hus (endsPhrase_of_separates hvs) (.inl rfl)
    unfold fnPointerParam
    refine (Takes.manyWhile_nil (hbegins.peekOp (c := '#') rfl (by decide))).bind (Takes.rest.bind ?_)
    refine .ifFalse ?_ (Takes.rest.bind (.ifFalse ?_ (Takes.pure.bind (.ifFalse ?_ ?_))))
    · rw [hmut, Bool.and_false, Bool.false_and]
    · unfold opensParam at hunnamed
      cases first with
      | true => rwa [Bool.true_and]
      | false =>
        rw [Bool.false_and, Bool.or_false]
        cases hname : (peekName (us ++ vs) || peekWord "_" (us ++ vs)) with
        | false => rfl
        | true => rwa [hname, Bool.true_or] at hunnamed
    · rw [hmut, Bool.and_false, Bool.false_and]
    · exact htakes.bind .pure

theorem trees_named (name : String) (t : Ty) :
    (FnPointerParam.mk [] (some name) t).trees = word name ++ (op ":" ++ t.trees) :=
  List.append_assoc ..

theorem spelled_named {name : String} {us : List Tree}
    (hus : Spelled (FnPointerParam.mk [] (some name) t).trees us) :
    ∃ pos joint pos' ts, us = .leaf (.ident name) pos :: .leaf (.punct ":" joint) pos' :: ts ∧
      Spelled t.trees ts := by
  rw [trees_named] at hus
  obtain ⟨ws, rs, rfl, hws, hrs⟩ := Spelled.append_iff.1 hus
  obtain ⟨cs, ts, rfl, hcs, hts⟩ := Spelled.append_iff.1 hrs
  obtain ⟨pos, rfl⟩ := Spelled.word_iff.1 hws
  obtain ⟨joint, pos', rfl⟩ := Spelled.sign (c := ':') rfl hcs
  exact ⟨pos, joint, pos', ts, rfl, hts⟩

theorem readsBack_named {name : String} (hname : isName name ∨ name = "_") (ht : t.ReadsBack)
    (hcolon : peekOp "::" t.trees = false) : (FnPointerParam.mk [] (some name) t).ReadsBack where
  begins us vs hus hvs := by
    obtain ⟨pos, joint, pos', ts, rfl, hts⟩ := spelled_named hus
    refine ⟨rfl, rfl, ?_⟩
    have hdots : peekOp "..." (ts ++ vs) = false :=
      (ht.begins_spelled hts vs).peekOp (c := '.') rfl (by decide)
    change (false || (_ && peekOp "..." (ts ++ vs))) = false
    rw [hdots, Bool.and_false, Bool.or_false]
  takes d first us vs hd hus hvs := by
    obtain ⟨pos, joint, pos', ts, rfl, hts⟩ := spelled_named hus
    rw [trees_named, sizes_append, sizes_append, sizes_word] at hd
    have htakes := ht.takes (d := d) (by omega) hts (endsPhrase_of_separates hvs) (.inl rfl)
    have hself : (first && peekWord "mut" (.leaf (.ident name) pos ::
        .leaf (.punct ":" joint) pos' :: (ts ++ vs)) && peekWord "self" (.leaf (.punct ":" joint) pos' ::
          (ts ++ vs))) = false := by
      exact Bool.and_false _
    have hone : peekOp "::" (.leaf (.punct ":" joint) pos' :: (ts ++ vs)) = false := by
      cases joint with
      | false => rfl
      | true => exact ht.noColon vs hts hcolon
    unfold fnPointerParam
    refine (Takes.manyWhile_nil rfl).bind (Takes.rest.bind (.ifFalse hself ?_))
    refine Takes.rest.bind (.ifTrue ?_ ?_)
    · change ((isName name || name == "_" || _) && true &&
        !peekOp "::" (.leaf (.punct ":" joint) pos' :: (ts ++ vs))) = true
      rw [hone]
      rcases hname with hname | rfl
      · simp [hname]
      · simp
    · refine Takes.anyWord.bind ((Takes.op rfl).bind (Takes.pure.bind (.ifFalse hself ?_)))
      exact htakes.bind .pure

end FnPointerParam

namespace Grammar

variable {d : Nat} {us vs : List Tree} {ps : List FnPointerParam}

/-- One parameter, and what is read behind it. -/
theorem takes_firstParam {p : FnPointerParam} {first : Bool} {fuel : Nat} {ws : List Tree}
    {r : List FnPointerParam × Bool × List Node} (hp : p.ReadsBack) (hd : sizes p.trees ≤ d)
    (hus : Spelled p.trees us) (hvs : Takes.Separates List.isEmpty "," vs)
    (h : Takes (do
      if (← Reader.rest).isEmpty then return ([p], false, [])
      let _ ← Reader.op ","
      let (ps, trailing, variadic) ← (ofDepth d).fnPointerParams false fuel
      return (p :: ps, trailing, variadic)) vs ws r) :
    Takes ((ofDepth d).fnPointerParams first (fuel + 1)) (us ++ vs) ws r := by
  obtain ⟨hsome, hhash, hdots⟩ := hp.begins hus hvs
  unfold fnPointerParams
  refine Takes.rest.bind (.ifFalse hsome ((Takes.manyWhile_nil hhash).bind (Takes.rest.bind ?_)))
  exact .ifFalse hdots ((hp.takes hd hus hvs).bind h)

/-- The parameters of a function pointer. -/
theorem takes_params {trailing : Bool} (hps : ∀ p ∈ ps, p.ReadsBack)
    (hd : ∀ p ∈ ps, sizes p.trees ≤ d)
    (hus : Spelled (separated "," trailing (ps.map FnPointerParam.trees)) us) {fuel : Nat}
    (hfuel : ps.length < fuel) (first : Bool) :
    Takes ((ofDepth d).fnPointerParams first fuel) us []
      (ps, if ps.isEmpty then !first else trailing, []) := by
  induction ps generalizing us first fuel with
  | nil =>
    obtain ⟨fuel, rfl⟩ := Nat.exists_eq_add_one_of_ne_zero (Nat.ne_zero_of_lt hfuel)
    cases hus
    exact Takes.rest.bind (.ifTrue rfl .pure)
  | cons p ps ih =>
    obtain ⟨fuel, rfl⟩ := Nat.exists_eq_add_one_of_ne_zero (Nat.ne_zero_of_lt hfuel)
    have hp := hps p (.head _)
    have hmore {rs : List Tree}
        (hrs : Spelled (separated "," trailing (ps.map FnPointerParam.trees)) rs) :=
      ih (fun q hq => hps q (.tail _ hq)) (fun q hq => hd q (.tail _ hq)) hrs
        (Nat.lt_of_succ_lt_succ hfuel) false
    cases ps with
    | nil =>
      obtain ⟨ts, ss, rfl, hts, hss⟩ := Spelled.append_iff.1 hus
      cases trailing with
      | false =>
        cases hss
        exact takes_firstParam hp (hd p (.head _)) hts (.inl rfl) (Takes.rest.bind (.ifTrue rfl .pure))
      | true =>
        obtain ⟨joint, pos, rfl⟩ := Spelled.sign (c := ',') rfl hss
        refine takes_firstParam hp (hd p (.head _)) hts (.inr ⟨joint, pos, [], rfl⟩) ?_
        exact Takes.rest.bind (.ifFalse rfl ((Takes.op rfl).bind ((hmore .nil).bind .pure)))
    | cons q ps =>
      obtain ⟨ts, joint, pos, rs, rfl, hts, hrs⟩ := Spelled.separated_more (c := ',') rfl hus
      refine takes_firstParam hp (hd p (.head _)) hts (.inr ⟨joint, pos, rs, rfl⟩) ?_
      exact Takes.rest.bind (.ifFalse rfl ((Takes.op rfl).bind ((hmore hrs).bind .pure)))

/-! ## Calling conventions -/

/-- The trees of a calling convention. -/
def abiTrees : Option (Option String) → List Tree
  | none => []
  | some none => word "extern"
  | some (some name) => word "extern" ++ lit name

theorem takes_abi {convention : Option (Option String)}
    (htext : ∀ text, convention = some (some text) → isTextLiteral text)
    (hus : Spelled (abiTrees convention) us) (pos : Pos) :
    Takes abi (us ++ .leaf (.ident "fn") pos :: vs) (.leaf (.ident "fn") pos :: vs) convention := by
  unfold abi
  match convention, htext, hus with
  | none, _, hus =>
    cases hus
    exact Takes.test.bind (.ifTrue rfl .pure)
  | some none, _, hus =>
    obtain ⟨pos', rfl⟩ := Spelled.word_iff.1 hus
    exact Takes.test.bind (.ifFalse rfl (Takes.word.bind (Takes.test.bind (.ifFalse rfl .pure))))
  | some (some text), htext, hus =>
    obtain ⟨ws, ls, rfl, hws, hls⟩ := Spelled.append_iff.1 hus
    obtain ⟨pos', rfl⟩ := Spelled.word_iff.1 hws
    obtain ⟨pos'', rfl⟩ := Spelled.lit_iff.1 hls
    have hliteral : Takes Reader.literal (.leaf (.literal text) pos'' :: .leaf (.ident "fn") pos :: vs)
        (.leaf (.ident "fn") pos :: vs) (.token (.literal text)) := fun _ _ => rfl
    refine Takes.test.bind (.ifFalse rfl (Takes.word.bind (Takes.test.bind ?_)))
    exact .ifTrue (htext text rfl) (hliteral.bind .pure)

/-- The words in front of the parameters of a function pointer. -/
theorem fnPointer_words {unchecked : Bool} {convention : Option (Option String)} {cs as : List Tree}
    (hcs : Spelled (when unchecked (word "unsafe")) cs) (has : Spelled (abiTrees convention) as)
    (pos : Pos) (vs : List Tree) :
    ∃ w pos' zs, cs ++ (as ++ .leaf (.ident "fn") pos :: vs) = .leaf (.ident w) pos' :: zs ∧
      (w = "unsafe" ∨ w = "extern" ∨ w = "fn") := by
  cases unchecked with
  | true =>
    obtain ⟨pos', rfl⟩ := Spelled.word_iff.1 hcs
    exact ⟨"unsafe", pos', _, rfl, .inl rfl⟩
  | false =>
    cases hcs
    match convention, has with
    | none, has =>
      cases has
      exact ⟨"fn", pos, _, rfl, .inr (.inr rfl)⟩
    | some none, has =>
      obtain ⟨pos', rfl⟩ := Spelled.word_iff.1 has
      exact ⟨"extern", pos', _, rfl, .inr (.inl rfl)⟩
    | some (some _), has =>
      obtain ⟨ws, ls, rfl, hws, -⟩ := Spelled.append_iff.1 has
      obtain ⟨pos', rfl⟩ := Spelled.word_iff.1 hws
      exact ⟨"extern", pos', _, rfl, .inr (.inl rfl)⟩

theorem takes_unchecked {unchecked : Bool} {convention : Option (Option String)} {cs as : List Tree}
    (hcs : Spelled (when unchecked (word "unsafe")) cs) (has : Spelled (abiTrees convention) as)
    (pos : Pos) (vs : List Tree) :
    ∃ r, Takes (Reader.word? "unsafe") (cs ++ (as ++ .leaf (.ident "fn") pos :: vs))
      (as ++ .leaf (.ident "fn") pos :: vs) r ∧ r.isSome = unchecked := by
  cases unchecked with
  | true =>
    obtain ⟨pos', rfl⟩ := Spelled.word_iff.1 hcs
    exact ⟨_, Takes.word?_some, rfl⟩
  | false =>
    cases hcs
    refine ⟨_, Takes.word?_none ?_, rfl⟩
    match convention, has with
    | none, has =>
      cases has
      rfl
    | some none, has =>
      obtain ⟨pos', rfl⟩ := Spelled.word_iff.1 has
      rfl
    | some (some _), has =>
      obtain ⟨ws, ls, rfl, hws, -⟩ := Spelled.append_iff.1 has
      obtain ⟨pos', rfl⟩ := Spelled.word_iff.1 hws
      rfl

/-- A binder in front of what begins with no binder, if there is one. -/
theorem takes_binderHere {b : Option Binder}
    (hb : ∀ x, b = some x → (Phrase.binder x).IsFormed ∧
      ∀ q ∈ x.params, (Phrase.genericParam q).IsPlain)
    (hus : Spelled (binderTrees b) us) (hvs : peekWord "for" vs = false) :
    Takes (ofDepth d).binderHere? (us ++ vs) vs b := by
  cases b with
  | none =>
    cases hus
    exact takes_binderHere_none hvs
  | some x =>
    obtain ⟨hformed, hplain⟩ := hb x rfl
    intro scope stray
    obtain ⟨hfor, htakes⟩ := takes_binder (g := ofDepth d) hformed hplain
      (e := sizes (us ++ vs)) hus vs
    have hbinder : Takes (binder? ((ofDepth d).paths (sizes (us ++ vs) + 1))) (us ++ vs) vs (some x) :=
      Takes.test.bind (.ifTrue hfor (htakes.bind .pure))
    exact hbinder scope stray

end Grammar

/-! ## Pointers -/

namespace Ty

variable {b : Option Binder} {unchecked trailing : Bool} {convention : Option (Option String)}
  {ps : List FnPointerParam} {o : Option Ty}

theorem trees_fnPointer : (fnPointer b unchecked convention ps trailing [] o).trees =
    binderTrees b ++ (when unchecked (word "unsafe") ++ (abiTrees convention ++ (word "fn" ++
      (within .paren (separated "," trailing (ps.map FnPointerParam.trees)) ++ outputTrees o)))) := by
  match convention with
  | none | some none | some (some _) => simp [Ty.trees, abiTrees, paramTrees_eq, when, nodesTrees]

/-- A function pointer begins with a word. -/
theorem begins_fnPointer (b : Option Binder) (unchecked trailing : Bool)
    (convention : Option (Option String)) (ps : List FnPointerParam) (o : Option Ty) :
    ∃ x xs, (fnPointer b unchecked convention ps trailing [] o).trees = x :: xs ∧ x.opensTy ∧
      x.isOwnSign := by
  rw [trees_fnPointer]
  cases b with
  | some x =>
    obtain ⟨params, trailing⟩ := x
    exact ⟨.leaf (.ident "for") noPos, _, rfl, rfl, rfl⟩
  | none =>
    cases unchecked with
    | true => exact ⟨.leaf (.ident "unsafe") noPos, _, rfl, rfl, rfl⟩
    | false =>
      match convention with
      | none => exact ⟨.leaf (.ident "fn") noPos, _, rfl, rfl, rfl⟩
      | some none | some (some _) => exact ⟨.leaf (.ident "extern") noPos, _, rfl, rfl, rfl⟩

/-- The parameters in the parentheses of a function pointer. -/
theorem takes_pointerParams {d : Nat} {ts : List Tree} (hps : ∀ p ∈ ps, p.ReadsBack)
    (htrailing : ps = [] → trailing = false)
    (hd : sizes (separated "," trailing (ps.map FnPointerParam.trees)) ≤ d)
    (hts : Spelled (separated "," trailing (ps.map FnPointerParam.trees)) ts) :
    Takes (do (ofDepth d).fnPointerParams true ((← Reader.rest).length + 1)) ts []
      (ps, trailing, []) := by
  have hlength : ps.length ≤ ts.length := hts.length_separated fun p hp => (hps p hp).trees_ne_nil
  have hflag : (if ps.isEmpty then !true else trailing) = trailing := by
    cases ps with
    | nil => exact (htrailing rfl).symm
    | cons => rfl
  have hsizes (p : FnPointerParam) (hp : p ∈ ps) : sizes p.trees ≤ d :=
    (sizes_le_separated (List.mem_map_of_mem hp)).trans hd
  have htakes := takes_params hps hsizes hts (Nat.lt_succ_of_le hlength) true
  rw [hflag] at htakes
  exact Takes.rest.bind htakes

theorem readsBack_fnPointer
    (hb : ∀ x, b = some x → (Phrase.binder x).IsFormed ∧
      ∀ q ∈ x.params, (Phrase.genericParam q).IsPlain)
    (htext : ∀ text, convention = some (some text) → isTextLiteral text)
    (hps : ∀ p ∈ ps, p.ReadsBack) (htrailing : ps = [] → trailing = false)
    (ho : ∀ t, o = some t → t.ReadsBack ∧ t.isSingle) :
    (fnPointer b unchecked convention ps trailing [] o).ReadsBack := by
  obtain ⟨x, xs, htrees, hopens, hown⟩ := begins_fnPointer b unchecked trailing convention ps o
  refine .of_sign htrees hopens hown fun d plus us vs hd hus hvs _ => ?_
  rw [trees_fnPointer] at hd hus
  simp only [sizes_append, sizes_word, sizes_within] at hd
  obtain ⟨bs, fs, rfl, hbs, hfs⟩ := Spelled.append_iff.1 hus
  obtain ⟨cs, gs, rfl, hcs, hgs⟩ := Spelled.append_iff.1 hfs
  obtain ⟨as, hs, rfl, has, hhs⟩ := Spelled.append_iff.1 hgs
  obtain ⟨ws, ks, rfl, hws, hks⟩ := Spelled.append_iff.1 hhs
  obtain ⟨pos, rfl⟩ := Spelled.word_iff.1 hws
  obtain ⟨ls, os, rfl, hls, hos⟩ := Spelled.append_iff.1 hks
  obtain ⟨ts, opened, closed, rfl, hts⟩ := Spelled.within_iff.1 hls
  simp only [List.append_assoc, List.cons_append, List.nil_append]
  -- behind the binder come the words of a function pointer
  obtain ⟨v, pos', zs, hwords, hv⟩ := fnPointer_words hcs has pos
    (.group .paren ts opened closed :: (os ++ vs))
  have hfn : ["fn", "unsafe", "extern"].any (peekWord · (cs ++ (as ++
      .leaf (.ident "fn") pos :: .group .paren ts opened closed :: (os ++ vs)))) = true := by
    rw [hwords]
    rcases hv with rfl | rfl | rfl <;> rfl
  have hfor : peekWord "for" (cs ++ (as ++ .leaf (.ident "fn") pos ::
      .group .paren ts opened closed :: (os ++ vs))) = false := by
    rw [hwords]
    rcases hv with rfl | rfl | rfl <;> rfl
  have hparen : peekGroup .paren (cs ++ (as ++ .leaf (.ident "fn") pos ::
      .group .paren ts opened closed :: (os ++ vs))) = false := by
    rw [hwords]
    rfl
  have hunchecked := takes_unchecked hcs has pos (.group .paren ts opened closed :: (os ++ vs))
  have hbinder := takes_binderHere hb (d := d) hbs hfor
  have hparams := takes_pointerParams (d := d) hps htrailing (by omega) hts
  obtain ⟨r, hunchecked, rfl⟩ := hunchecked
  have hend : endsPhrase false vs := endsPhrase_single hvs
  have hpointer : Takes ((ofDepth d).fnPointer b) (cs ++ (as ++ .leaf (.ident "fn") pos ::
      .group .paren ts opened closed :: (os ++ vs))) vs
      (fnPointer b r.isSome convention ps trailing [] o) := by
    unfold Grammar.fnPointer
    refine (takes_binderHere_none hfor).bind (hunchecked.bind ((takes_abi htext has pos).bind ?_))
    refine Takes.word.bind ((Takes.within hparams).bind ((takes_output ho (by omega) hos hend).bind ?_))
    cases b <;> exact .pure
  unfold typeWith
  refine Takes.rest.bind (hbinder.bind (Takes.rest.bind (Takes.get fun c _ => ?_)))
  refine .ifFalse ?_ (.ifFalse hparen (.ifTrue hfn hpointer))
  rw [hfn]
  simp

end Ty

end WrapperGen.Source
