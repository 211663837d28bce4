import WrapperGen.Proofs.Rendered.Bounds
/-!
# Spelled arguments

What a name is applied to is taken off its tokens if the types in it are: arguments in angle
brackets, and the types in parentheses with the type of the result.
-/

namespace WrapperGen.Source

open Tree Grammar

/-! ## Types in front of other phrases -/

/-- Whether a type that begins here is taken for the name of a parameter. -/
def opensParam (ts : List Tree) : Bool :=
  (peekName ts || peekWord "_" ts || peekWord "self" ts) && peekOp ":" (ts.drop 1) &&
    !peekOp "::" (ts.drop 1)

/-- A type is taken off its tokens, and begins as nothing else that may stand in its place. -/
structure Ty.ReadsBack (t : Ty) : Prop where
  begins : BeginsType t.trees
  notLess : ∀ ⦃us⦄ vs, Spelled t.trees us → peekOp "<=" (us ++ vs) = false
  noColon : ∀ ⦃us⦄ vs, Spelled t.trees us → peekOp "::" t.trees = false → peekOp ":" (us ++ vs) = false
  unnamed : ∀ ⦃us vs⦄, Spelled t.trees us → Takes.Separates List.isEmpty "," vs →
    opensParam (us ++ vs) = false
  takes : ∀ ⦃d plus us vs⦄, sizes t.trees ≤ d → Spelled t.trees us → endsPhrase plus vs →
    (plus = true ∨ t.isSingle = true) → Takes ((ofDepth d).ty plus) (us ++ vs) vs t

theorem Ty.ReadsBack.begins_spelled {t : Ty} (ht : t.ReadsBack) {us : List Tree}
    (hus : Spelled t.trees us) (vs : List Tree) : BeginsType (us ++ vs) :=
  (ht.begins.spelled hus).append vs

/-- A generic argument is taken off its tokens, and begins neither as the end of all arguments nor
so that the bracket in front of it would be another operator. -/
structure GenericArg.ReadsBack (a : GenericArg) : Prop where
  begins : ∀ ⦃us⦄ vs, Spelled a.trees us → peekOp ">" (us ++ vs) = false ∧
    peekOp "=" (us ++ vs) = false ∧ peekOp "<=" (us ++ vs) = false
  takes : ∀ ⦃d e us vs⦄, sizes a.trees ≤ d → sizes a.trees ≤ e → Spelled a.trees us → endsArg vs →
    Takes ((ofDepth d).genericArg ((ofDepth d).paths e)) (us ++ vs) vs a

theorem GenericArg.ReadsBack.trees_ne_nil {a : GenericArg} (h : a.ReadsBack) : a.trees ≠ [] := by
  intro hnil
  have hspelled : Spelled a.trees [] := by
    rw [hnil]
    exact .nil
  have hbegins := (h.begins (op ">") hspelled).1
  cases hbegins

/-! ## Lists with marks -/

/-- Each item with whether a separator follows. -/
def marked {α : Type} (trailing : Bool) : List α → List (α × Bool)
  | [] => []
  | [a] => [(a, trailing)]
  | a :: as => (a, true) :: marked trailing as

theorem map_marked {α : Type} (trailing : Bool) (as : List α) :
    (marked trailing as).map (·.1) = as := by
  fun_induction marked trailing as with
  | case1 => rfl
  | case2 => rfl
  | case3 a as _ ih => rw [List.map_cons, ih]

theorem getLast_marked {α : Type} {trailing : Bool} {as : List α} (h : as = [] → trailing = false) :
    ((marked trailing as).getLast?.map (·.2)).getD false = trailing := by
  fun_induction marked trailing as with
  | case1 => rw [h rfl]; rfl
  | case2 => rfl
  | case3 a as hne ih =>
    obtain ⟨b, bs, rfl⟩ := List.exists_cons_of_ne_nil fun has => hne has
    have hsome : marked trailing (b :: bs) ≠ [] := by
      intro hnil
      have := map_marked trailing (b :: bs)
      rw [hnil] at this
      cases this
    obtain ⟨c, cs, hcs⟩ := List.exists_cons_of_ne_nil hsome
    rw [hcs] at ih ⊢
    rw [List.getLast?_cons_cons]
    exact ih (by simp)

theorem separated_eq_append (sep : String) (trailing : Bool) (t : List Tree) (ts : List (List Tree)) :
    ∃ us, separated sep trailing (t :: ts) = t ++ us := by
  cases ts with
  | nil => exact ⟨_, rfl⟩
  | cons u ts => exact ⟨_, (separated_cons_cons ..).trans (List.append_assoc ..)⟩

namespace Grammar

variable {d e : Nat} {us vs : List Tree}

/-! ## Results -/

theorem takes_output {o : Option Ty} (ho : ∀ t, o = some t → t.ReadsBack ∧ t.isSingle)
    (hd : sizes (outputTrees o) ≤ d) (hus : Spelled (outputTrees o) us) (hvs : endsPhrase false vs) :
    Takes ((ofDepth d).output false) (us ++ vs) vs o := by
  unfold output
  cases o with
  | none =>
    cases hus
    exact Takes.test.bind (.ifFalse (endsPhrase_iff.1 hvs).2.2.2.1 .pure)
  | some t =>
    obtain ⟨ht, hsingle⟩ := ho t rfl
    rw [outputTrees, sizes_append] at hd
    obtain ⟨as, ts, rfl, has, hts⟩ := Spelled.append_iff.1 hus
    obtain ⟨joint, pos, pos', rfl⟩ := has.arrow
    refine Takes.test.bind (.ifTrue rfl ((Takes.op rfl).bind ?_))
    exact (ht.takes (by omega) hts hvs (.inr hsingle)).bind .pure

theorem takesItem_ty {t : Ty} (ht : t.ReadsBack) (hd : sizes t.trees ≤ d) :
    Takes.TakesItem List.isEmpty "," ((ofDepth d).ty true) t.trees t := by
  intro us vs hus hvs
  refine ⟨List.isEmpty_eq_false_iff.2 (ht.begins_spelled hus vs).ne_nil, ht.takes hd hus ?_ (.inl rfl)⟩
  rcases hvs with hvs | ⟨joint, pos, ws, rfl⟩
  · cases List.isEmpty_iff.1 hvs
    rfl
  · exact endsPhrase_sign (by decide)

/-- Types with commas between them up to the end of a bracket. -/
theorem takes_tys {ts : List Ty} {trailing : Bool} (hts : ∀ t ∈ ts, t.ReadsBack)
    (htrailing : ts = [] → trailing = false)
    (hd : sizes (separated "," trailing (tyTrees ts)) ≤ d)
    (hus : Spelled (separated "," trailing (tyTrees ts)) us) :
    Takes (Reader.commaList ((ofDepth d).ty true)) us [] (ts, trailing) := by
  rw [tyTrees_eq] at hus hd
  refine Takes.commaList (fun t ht => takesItem_ty (hts t ht) ?_)
    (fun t ht => (hts t ht).begins.ne_nil) htrailing hus
  exact Nat.le_trans (sizes_le_separated (List.mem_map_of_mem ht)) hd

theorem takes_parenArgs {ts : List Ty} {trailing : Bool} {o : Option Ty}
    (hts : ∀ t ∈ ts, t.ReadsBack) (htrailing : ts = [] → trailing = false)
    (ho : ∀ t, o = some t → t.ReadsBack ∧ t.isSingle) : (Args.paren ts trailing o).ReadsBack := by
  intro d us vs hd hus hvs
  rw [Args.trees, sizes_append, sizes_within] at hd
  obtain ⟨gs, os, rfl, hgs, hos⟩ := Spelled.append_iff.1 hus
  obtain ⟨ws, opened, closed, rfl, hws⟩ := Spelled.within_iff.1 hgs
  refine ⟨rfl, ?_⟩
  unfold parenArgs
  rw [List.append_assoc]
  exact (Takes.within (takes_tys hts htrailing (by omega) hws)).bind
    ((takes_output ho (by omega) hos hvs).bind .pure)

end Grammar

/-! ## Constant arguments -/

/-- A literal without a sign is one token. -/
theorem trees_literal {text : String} {c : Char} {cs : List Char} (htext : text.toList = c :: cs)
    (hc : c ≠ '-') : (Node.token (.literal text)).trees = lit text := by
  rw [Node.trees, Token.trees]
  split
  · rename_i hsign
    rw [htext] at hsign
    exact absurd (List.cons.inj hsign).1 hc
  · rfl

/-- A plain literal is one literal, a sign and a number, or a truth value. -/
theorem trees_plainLiteral {n : Node} (hn : Phrase.isPlainLiteral n) :
    (∃ text, (isNumberText text ∨ isQuotedWord text) ∧ n = .token (.literal text) ∧
        n.trees = lit text) ∨
      (∃ digits, n = .token (.literal ("-" ++ digits)) ∧ isNumberText digits ∧
        n.trees = op "-" ++ lit digits) ∨
      n = .word "true" ∨ n = .word "false" := by
  match n, hn with
  | .token (.ident text), hn =>
    simp only [Phrase.isPlainLiteral, Bool.or_eq_true, beq_iff_eq] at hn
    rcases hn with rfl | rfl
    · exact .inr (.inr (.inl rfl))
    · exact .inr (.inr (.inr rfl))
  | .token (.literal text), hn =>
    simp only [Phrase.isPlainLiteral, Bool.or_eq_true, or_assoc] at hn
    rcases hn with hdigits | hquoted | hsigned
    · obtain ⟨c, cs, htext, hc⟩ := front_of_isNumberText hdigits
      refine .inl ⟨text, .inl hdigits, rfl, trees_literal htext ?_⟩
      rintro rfl
      cases hc
    · obtain ⟨cs, htext, -⟩ := isQuotedWord_iff.1 hquoted
      exact .inl ⟨text, .inr hquoted, rfl, trees_literal htext (by decide)⟩
    · split at hsigned
      · rename_i cs htext
        have hsplit : text = "-" ++ String.ofList cs := by
          rw [← String.toList_inj]
          simp [htext]
        refine .inr (.inl ⟨String.ofList cs, by rw [hsplit], hsigned, ?_⟩)
        rw [Node.trees, Token.trees, htext]
        rfl
      · cases hsigned

namespace Grammar

variable {d e : Nat} {us vs : List Tree}

/-- A literal begins with itself or with a sign. -/
theorem takes_literal {n : Node} (hn : Phrase.isPlainLiteral n) (hus : Spelled n.trees us)
    (vs : List Tree) : peekLit (us ++ vs) = true ∧ Takes Reader.literal (us ++ vs) vs n := by
  rcases trees_plainLiteral hn with ⟨text, -, rfl, htrees⟩ | ⟨digits, rfl, hdigits, htrees⟩ | rfl | rfl
  · rw [htrees] at hus
    obtain ⟨pos, rfl⟩ := Spelled.lit_iff.1 hus
    exact ⟨rfl, fun _ _ => rfl⟩
  · rw [htrees] at hus
    obtain ⟨ss, ls, rfl, hss, hls⟩ := Spelled.append_iff.1 hus
    obtain ⟨joint, pos, rfl⟩ := Spelled.sign (c := '-') rfl hss
    obtain ⟨pos', rfl⟩ := Spelled.lit_iff.1 hls
    obtain ⟨c, cs, htext, hc⟩ := front_of_isNumberText hdigits
    have hfront : digits.front.isDigit = true := by rwa [front_of_toList htext]
    refine ⟨hfront, fun scope stray => ?_⟩
    change (if digits.front.isDigit then _ else _ : Reader Node) _ = _
    rw [if_pos hfront]
    rfl
  · obtain ⟨pos, rfl⟩ := Spelled.word_iff.1 hus
    exact ⟨rfl, fun _ _ => rfl⟩
  · obtain ⟨pos, rfl⟩ := Spelled.word_iff.1 hus
    exact ⟨rfl, fun _ _ => rfl⟩

theorem takes_constArgument {g : Grammar} {n : Node} (hn : Phrase.isPlainLiteral n)
    (hus : Spelled n.trees us) : Takes g.constArgument (us ++ vs) vs n := by
  obtain ⟨hlit, htakes⟩ := takes_literal hn hus vs
  exact Takes.rest.bind (.ifTrue hlit htakes)

/-- The signs that a plain literal does not begin with. -/
theorem peekOp_literal {n : Node} (hn : Phrase.isPlainLiteral n) (hus : Spelled n.trees us)
    (vs : List Tree) : peekLifetime (us ++ vs) = false ∧ peekOp ">" (us ++ vs) = false ∧
      peekOp "=" (us ++ vs) = false ∧ peekOp "<=" (us ++ vs) = false := by
  rcases trees_plainLiteral hn with ⟨text, -, rfl, htrees⟩ | ⟨digits, rfl, hdigits, htrees⟩ | rfl | rfl
  · rw [htrees] at hus
    obtain ⟨pos, rfl⟩ := Spelled.lit_iff.1 hus
    exact ⟨rfl, rfl, rfl, rfl⟩
  · rw [htrees] at hus
    obtain ⟨ss, ls, rfl, hss, hls⟩ := Spelled.append_iff.1 hus
    obtain ⟨joint, pos, rfl⟩ := Spelled.sign (c := '-') rfl hss
    exact ⟨rfl, rfl, rfl, by cases joint <;> rfl⟩
  · obtain ⟨pos, rfl⟩ := Spelled.word_iff.1 hus
    exact ⟨rfl, rfl, rfl, rfl⟩
  · obtain ⟨pos, rfl⟩ := Spelled.word_iff.1 hus
    exact ⟨rfl, rfl, rfl, rfl⟩

/-! ## Bounds of an associated type -/

/-- The bounds up to the end of an argument. -/
theorem takes_boundsUntil {bs : List Bound} (hbs : ∀ b ∈ bs, b.isWritten)
    (hd : ∀ b ∈ bs, sizes b.trees ≤ d) (he : ∀ b ∈ bs, sizes b.trees ≤ e)
    (hus : Spelled (separated "+" false (bs.map Bound.trees)) us) (hvs : endsArg vs) :
    Takes (genericArg.boundsUntil ((ofDepth d).paths (e + 1))) (us ++ vs) vs (bs, false) := by
  have hbound {b : Bound} (hb : b ∈ bs) {ts ws : List Tree} (hts : Spelled b.trees ts)
      (hws : endsPhrase false ws) :
      Takes (((ofDepth d).paths (e + 1)).bound false true) (ts ++ ws) ws b :=
    fun scope stray => takes_boundWith (hbs b hb) (hd b hb) (he b hb) hts hws scope stray
  obtain ⟨hstop, -, -, hplus⟩ := endsArg_signs hvs
  have hgo {ts : List Tree} (hts : beginsBound false ts = true) :
      (peekOp "," ts || peekOp ">" ts) = false := by
    rw [peekOp_beginsBound (c := ',') hts rfl (by decide),
      peekOp_beginsBound (c := '>') hts rfl (by decide)]
    rfl
  have hlonger {b : Bound} (hb : b ∈ bs) {ts : List Tree} (hts : Spelled b.trees ts) :
      0 < ts.length := by
    have hbegins := beginsBound_of (hbs b hb) hts false []
    cases ts with
    | nil => cases hbegins
    | cons => exact Nat.succ_pos _
  unfold genericArg.boundsUntil
  refine Takes.bind (show Takes _ _ vs (marked false bs) from Takes.many ?_) ?_
  · clear hd he
    induction bs generalizing us with
    | nil =>
      cases hus
      exact .stop (Takes.test.bind (.ifTrue hstop .pure))
    | cons b bs ih =>
      have hb := hbs b (.head _)
      cases bs with
      | nil =>
        rw [List.map_singleton, separated_singleton] at hus
        refine .step (Takes.test.bind (.ifFalse (hgo (beginsBound_of hb hus false _)) ?_)) ?_
          (.stop (Takes.test.bind (.ifTrue hstop .pure)))
        · exact (hbound (.head _) hus (endsPhrase_of_endsArg hvs)).bind
            (Takes.test.bind (.ifFalse hplus .pure))
        · have := hlonger (.head _) hus
          rw [List.length_append]
          omega
      | cons c bs =>
        obtain ⟨ts, joint, pos, rs, rfl, hts, hrs⟩ := Spelled.separated_more (c := '+') rfl hus
        have hmore := ih (fun x hx => hbs x (.tail _ hx)) hrs (fun hx => hbound (.tail _ hx))
          (fun hx => hlonger (.tail _ hx))
        rw [List.append_assoc, List.cons_append]
        refine .step (Takes.test.bind (.ifFalse (hgo (beginsBound_of hb hts false _)) ?_)) ?_ hmore
        · exact (hbound (.head _) hts endsPhrase_plus).bind
            (Takes.test.bind (.ifTrue rfl ((Takes.op rfl).bind .pure)))
        · simp only [List.length_append, List.length_cons]
          omega
  · show Takes (pure ((marked false bs).map (·.1), _)) _ _ _
    rw [map_marked, getLast_marked fun _ => rfl]
    exact .pure

/-! ## Generic arguments -/

theorem readsBack_lifetime (name : String) : (GenericArg.lifetime name).ReadsBack where
  begins us vs hus := by
    obtain ⟨pos, rfl⟩ := Spelled.tick_iff.1 hus
    exact ⟨rfl, rfl, rfl⟩
  takes d e us vs _ _ hus hvs := by
    obtain ⟨pos, rfl⟩ := Spelled.tick_iff.1 hus
    obtain ⟨t, joint, pos', ws, rfl, ht⟩ := endsArg_iff.1 hvs
    unfold genericArg
    refine Takes.rest.bind (.ifTrue ?_ (Takes.lifetime.bind .pure))
    rcases ht with rfl | rfl <;> rfl

theorem readsBack_type {t : Ty} (ht : t.ReadsBack) : (GenericArg.type t).ReadsBack where
  begins us vs hus := by
    have hbegins := ht.begins_spelled hus vs
    exact ⟨hbegins.peekOp (c := '>') rfl (by decide), hbegins.peekOp (c := '=') rfl (by decide),
      ht.notLess vs hus⟩
  takes d e us vs hd _ hus hvs := by
    have hbegins := ht.begins_spelled hus vs
    have hends : peekOp "=" vs = false ∧ peekOp ":" vs = false := by
      obtain ⟨t, joint, pos', ws, rfl, rfl | rfl⟩ := endsArg_iff.1 hvs <;> exact ⟨rfl, rfl⟩
    unfold genericArg
    refine Takes.rest.bind (.ifFalse ?_ (.ifFalse ?_ ?_))
    · rw [hbegins.peekLifetime, Bool.false_and]
    · rw [hbegins.peekLit, hbegins.peekBrace, Bool.false_or]
    refine (ht.takes hd hus (endsPhrase_of_endsArg hvs) (.inl rfl)).bind ?_
    split
    · split
      · exact .pure
      · exact (Takes.op?_none hends.1).bind ((Takes.op?_none hends.2).bind .pure)
    · exact .pure

theorem readsBack_const {n : Node} (hn : Phrase.isPlainLiteral n) : (GenericArg.const n).ReadsBack where
  begins us vs hus := (peekOp_literal hn hus vs).2
  takes d e us vs _ _ hus _ := by
    unfold genericArg
    refine Takes.rest.bind (.ifFalse ?_ (.ifTrue ?_ ((takes_constArgument hn hus).bind .pure)))
    · rw [(peekOp_literal hn hus vs).1, Bool.false_and]
    · rw [(takes_literal hn hus vs).1, Bool.true_or]

/-! ## Associated types -/

section Assoc

variable {name : String} {a : Args}

theorem trees_assocPath (name : String) (a : Args) :
    (Ty.path (GenericArg.assocPath name a)).trees = word name ++ a.trees := by
  rw [Ty.trees, GenericArg.assocPath, Path.trees_cons, Segment.trees]
  simp [when]

theorem isParen_of_isFormed (name : String) (a : Args) :
    (GenericArg.assocPath name a).isFormed → (a matches .paren ..) = false := by
  intro h
  cases a with
  | none | angle => rfl
  | paren => simp [Path.isFormed, GenericArg.assocPath, Segment.isFormed] at h

/-- What begins with a word begins with no sign. -/
theorem begins_assoc {ts : List Tree} (hus : Spelled (word name ++ ts) us) (vs : List Tree) :
    peekOp ">" (us ++ vs) = false ∧ peekOp "=" (us ++ vs) = false ∧
      peekOp "<=" (us ++ vs) = false := by
  obtain ⟨ws, rs, rfl, hws, -⟩ := Spelled.append_iff.1 hus
  obtain ⟨pos, rfl⟩ := Spelled.word_iff.1 hws
  exact ⟨rfl, rfl, rfl⟩

/-- The name of an associated type is read as a type. -/
theorem takes_assocName {k : Ty → Reader GenericArg} {b : GenericArg} {ws : List Tree}
    (hpath : (Ty.path (GenericArg.assocPath name a)).ReadsBack)
    (hd : sizes (word name ++ a.trees) ≤ d) (hus : Spelled (word name ++ a.trees) us)
    (hvs : endsPhrase true vs) (hk : Takes (k (.path (GenericArg.assocPath name a))) vs ws b) :
    Takes (do
      let ts ← Reader.rest
      if peekLifetime ts && !peekOp "+" (ts.drop 1) then return .lifetime (← Reader.lifetime)
      if peekLit ts || peekGroup .brace ts then return .const (← (ofDepth d).constArgument)
      let ty ← (ofDepth d).ty true
      k ty) (us ++ vs) ws b := by
  rw [← trees_assocPath] at hd hus
  have hbegins := hpath.begins_spelled hus vs
  refine Takes.rest.bind (.ifFalse ?_ (.ifFalse ?_ ?_))
  · rw [hbegins.peekLifetime, Bool.false_and]
  · rw [hbegins.peekLit, hbegins.peekBrace, Bool.false_or]
  · exact (hpath.takes hd hus hvs (.inl rfl)).bind hk

theorem readsBack_assocType {t : Ty} (hpath : (Ty.path (GenericArg.assocPath name a)).ReadsBack)
    (hformed : (GenericArg.assocPath name a).isFormed) (ht : t.ReadsBack) :
    (GenericArg.assocType name a t).ReadsBack where
  begins us vs hus := by
    rw [GenericArg.trees, List.append_assoc, List.append_assoc] at hus
    exact begins_assoc hus vs
  takes d e us vs hd _ hus hvs := by
    rw [GenericArg.trees] at hus hd
    rw [sizes_append, sizes_append] at hd
    obtain ⟨fs, ts, rfl, hfs, hts⟩ := Spelled.append_iff.1 hus
    obtain ⟨ns, os, rfl, hns, hos⟩ := Spelled.append_iff.1 hfs
    obtain ⟨joint, pos, rfl⟩ := Spelled.sign (c := '=') rfl hos
    have hbegins := ht.begins_spelled hts vs
    unfold genericArg
    rw [List.append_assoc, List.append_assoc]
    refine takes_assocName hpath (by omega) hns (endsPhrase_sign (by decide)) ?_
    refine .ifFalse (isParen_of_isFormed name a hformed) ((Takes.op?_some rfl).bind (.ifTrue rfl ?_))
    refine Takes.rest.bind (.ifFalse ?_ ?_)
    · change (peekLit (ts ++ vs) || peekGroup .brace (ts ++ vs)) = false
      rw [hbegins.peekLit, hbegins.peekBrace, Bool.false_or]
    · exact (ht.takes (by omega) hts (endsPhrase_of_endsArg hvs) (.inl rfl)).bind .pure

theorem readsBack_assocConst {n : Node}
    (hpath : (Ty.path (GenericArg.assocPath name a)).ReadsBack)
    (hformed : (GenericArg.assocPath name a).isFormed) (hn : Phrase.isPlainLiteral n) :
    (GenericArg.assocConst name a n).ReadsBack where
  begins us vs hus := by
    rw [GenericArg.trees, List.append_assoc, List.append_assoc] at hus
    exact begins_assoc hus vs
  takes d e us vs hd _ hus hvs := by
    rw [GenericArg.trees] at hus hd
    rw [sizes_append, sizes_append] at hd
    obtain ⟨fs, ts, rfl, hfs, hts⟩ := Spelled.append_iff.1 hus
    obtain ⟨ns, os, rfl, hns, hos⟩ := Spelled.append_iff.1 hfs
    obtain ⟨joint, pos, rfl⟩ := Spelled.sign (c := '=') rfl hos
    unfold genericArg
    rw [List.append_assoc, List.append_assoc]
    refine takes_assocName hpath (by omega) hns (endsPhrase_sign (by decide)) ?_
    refine .ifFalse (isParen_of_isFormed name a hformed) ((Takes.op?_some rfl).bind (.ifTrue rfl ?_))
    refine Takes.rest.bind (.ifTrue ?_ ((takes_constArgument hn hts).bind .pure))
    change (peekLit (ts ++ vs) || peekGroup .brace (ts ++ vs)) = true
    rw [(takes_literal hn hts vs).1, Bool.true_or]

/-- After the colon of a constraint comes no further colon. -/
theorem peekOp_colon {bs : List Bound} (hbs : ∀ b ∈ bs, b.isWritten)
    (hcolon : peekOp "::" (separated "+" false (boundTrees bs)) = false)
    (hus : Spelled (separated "+" false (bs.map Bound.trees)) us) (hvs : endsArg vs) :
    peekOp ":" (us ++ vs) = false := by
  rw [boundTrees_eq] at hcolon
  by_cases hne : bs = []
  · cases hne
    cases hus
    exact (endsArg_signs hvs).2.2.1
  have hbegins := beginsBound_bounds hbs hne (Spelled.refl _) false []
  rw [List.append_nil] at hbegins
  revert hbegins hcolon hus
  generalize separated "+" false (bs.map Bound.trees) = ts
  intro hcolon hus hbegins
  obtain _ | ⟨hspells, -⟩ := hus
  · cases hbegins
  · cases hspells with
    | @leaf token _ _ hword =>
      cases token with
      | punct => exact absurd rfl (hword _ _)
      | ident | lifetime | literal => rfl
    | group => rfl
    | @punct text joint joint' =>
      refine beq_false_of_ne fun heq => ?_
      subst heq
      simp only [beginsBound, hcolon] at hbegins
      cases hbegins

theorem readsBack_constraint {bs : List Bound}
    (hpath : (Ty.path (GenericArg.assocPath name a)).ReadsBack)
    (hformed : (GenericArg.assocPath name a).isFormed) (hbs : ∀ b ∈ bs, b.isWritten)
    (hcolon : peekOp "::" (separated "+" false (boundTrees bs)) = false) :
    (GenericArg.constraint name a bs false).ReadsBack where
  begins us vs hus := by
    rw [GenericArg.trees, List.append_assoc, List.append_assoc] at hus
    exact begins_assoc hus vs
  takes d e us vs hd he hus hvs := by
    rw [GenericArg.trees, boundTrees_eq] at hus hd he
    rw [sizes_append, sizes_append] at hd he
    obtain ⟨fs, ts, rfl, hfs, hts⟩ := Spelled.append_iff.1 hus
    obtain ⟨ns, os, rfl, hns, hos⟩ := Spelled.append_iff.1 hfs
    obtain ⟨joint, pos, rfl⟩ := Spelled.sign (c := ':') rfl hos
    have hone := peekOp_colon hbs hcolon hts hvs
    have hname : 1 ≤ sizes (word name ++ a.trees) := by
      rw [sizes_append, sizes_word]
      omega
    have hle (b : Bound) (hb : b ∈ bs) :
        sizes b.trees ≤ sizes (separated "+" false (bs.map Bound.trees)) :=
      sizes_le_separated (List.mem_map_of_mem hb)
    obtain ⟨e, rfl⟩ : ∃ n, e = n + 1 := ⟨e - 1, by omega⟩
    unfold genericArg
    rw [List.append_assoc, List.append_assoc]
    refine takes_assocName hpath (by omega) hns (endsPhrase_colon hone) ?_
    refine .ifFalse (isParen_of_isFormed name a hformed) ((Takes.op?_none rfl).bind (.ifFalse rfl ?_))
    refine (Takes.op?_some rfl).bind (.ifTrue rfl ?_)
    refine (takes_boundsUntil hbs ?_ ?_ hts hvs).bind .pure
    · intro b hb
      have := hle b hb
      omega
    · intro b hb
      have := hle b hb
      omega

end Assoc

/-! ## Arguments in angle brackets -/

theorem takes_argList {as : List GenericArg} {trailing : Bool} (has : ∀ a ∈ as, a.ReadsBack)
    (hd : ∀ a ∈ as, sizes a.trees ≤ d) (he : ∀ a ∈ as, sizes a.trees ≤ e)
    (hus : Spelled (separated "," trailing (as.map GenericArg.trees)) us) {joint : Bool} {pos : Pos}
    {fuel : Nat} (hfuel : as.length < fuel) :
    Takes (angleArgs.argList (ofDepth d) ((ofDepth d).paths e) fuel)
      (us ++ .leaf (.punct ">" joint) pos :: vs) (.leaf (.punct ">" joint) pos :: vs)
      (marked trailing as) := by
  induction as generalizing us fuel with
  | nil =>
    obtain ⟨fuel, rfl⟩ := Nat.exists_eq_add_one_of_ne_zero (Nat.ne_zero_of_lt hfuel)
    cases hus
    exact Takes.test.bind (.ifTrue rfl .pure)
  | cons a as ih =>
    obtain ⟨fuel, rfl⟩ := Nat.exists_eq_add_one_of_ne_zero (Nat.ne_zero_of_lt hfuel)
    have ha := has a (.head _)
    have htakes {ts ws : List Tree} (hts : Spelled a.trees ts) (hws : endsArg ws) :=
      ha.takes (hd a (.head _)) (he a (.head _)) hts hws
    cases as with
    | nil =>
      obtain ⟨ts, ss, rfl, hts, hss⟩ := Spelled.append_iff.1 hus
      rw [List.append_assoc]
      refine Takes.test.bind (.ifFalse (ha.begins _ hts).1 ?_)
      cases trailing with
      | false =>
        cases hss
        exact (htakes hts rfl).bind (Takes.test.bind (.ifTrue rfl .pure))
      | true =>
        obtain ⟨joint', pos', rfl⟩ := Spelled.sign (c := ',') rfl hss
        obtain ⟨fuel, rfl⟩ : ∃ n, fuel = n + 1 := ⟨fuel - 1, by simp at hfuel; omega⟩
        refine (htakes hts rfl).bind (Takes.test.bind (.ifFalse rfl ((Takes.op rfl).bind ?_)))
        exact Takes.bind (Takes.test.bind (.ifTrue rfl .pure)) .pure
    | cons b as =>
      obtain ⟨ts, joint', pos', rs, rfl, hts, hrs⟩ := Spelled.separated_more (c := ',') rfl hus
      have hmore := ih (fun x hx => has x (.tail _ hx)) (fun x hx => hd x (.tail _ hx))
        (fun x hx => he x (.tail _ hx)) hrs (by simpa using hfuel)
      rw [List.append_assoc, List.cons_append]
      refine Takes.test.bind (.ifFalse (ha.begins _ hts).1 ((htakes hts rfl).bind ?_))
      exact Takes.test.bind (.ifFalse rfl ((Takes.op rfl).bind (hmore.bind .pure)))

/-- What comes first by its kind stays where it is. -/
theorem filter_append_filter {α β : Type} {p : α → Bool} {f : β → α} {xs : List β}
    (h : xs.map f = (xs.map f).filter p ++ (xs.map f).filter (!p ·)) :
    xs.filter (p ∘ f) ++ xs.filter (fun x => !p (f x)) = xs := by
  induction xs with
  | nil => rfl
  | cons x xs ih =>
    by_cases hp : p (f x)
    · simp only [List.map_cons, List.filter_cons, hp, if_pos, Bool.not_true, Bool.false_eq_true,
        if_false, List.cons_append, List.cons.injEq, true_and] at h
      simp only [List.filter_cons, Function.comp_apply, hp, if_pos, Bool.not_true,
        Bool.false_eq_true, if_false, List.cons_append]
      rw [ih h]
    · -- nothing of the first kind comes after something of the other
      have hnone : (xs.map f).filter p = [] := by
        simp only [List.map_cons, List.filter_cons, hp] at h
        by_contra hsome
        obtain ⟨y, ys, hys⟩ := List.exists_cons_of_ne_nil hsome
        have hy : p y := by
          have : y ∈ (xs.map f).filter p := hys ▸ List.mem_cons_self
          exact (List.mem_filter.1 this).2
        rw [if_neg (by simp), hys] at h
        exact hp ((List.cons.inj h).1 ▸ hy)
      have hno (y : β) (hy : y ∈ xs) : p (f y) = false := by
        have := List.filter_eq_nil_iff.1 hnone (f y) (List.mem_map_of_mem hy)
        simpa using this
      have hp : p (f x) = false := by simpa using hp
      rw [List.filter_eq_nil_iff.2, List.filter_eq_self.2, List.nil_append]
      · intro y hy
        rcases List.mem_cons.1 hy with rfl | hy
        · simp [hp]
        · simp [hno y hy]
      · intro y hy
        rcases List.mem_cons.1 hy with rfl | hy
        · simp [hp]
        · simp [hno y hy]

/-- Lifetimes that come first stay there. -/
theorem lifetimesFirst_marked {isLifetime : GenericArg → Bool}
    (hkind : ∀ a, isLifetime a = a.isLifetime) {as : List GenericArg} {trailing : Bool}
    (has : as = as.filter GenericArg.isLifetime ++ as.filter (!·.isLifetime))
    (htrailing : as = [] → trailing = false) :
    lifetimesFirst isLifetime (marked trailing as) = (as, trailing) := by
  cases funext hkind
  have hmap : (marked trailing as).map Prod.fst = as := map_marked trailing as
  have hsorted : (marked trailing as).filter (fun x => x.1.isLifetime) ++
      (marked trailing as).filter (fun x => !x.1.isLifetime) = marked trailing as :=
    filter_append_filter (hmap.symm ▸ has)
  unfold lifetimesFirst
  rw [hsorted]
  exact congrArg₂ Prod.mk hmap (getLast_marked htrailing)

section

variable {as : List GenericArg} {trailing : Bool} {joint joint' : Bool} {pos pos' : Pos}

/-- The bracket in front of arguments is no part of a longer operator. -/
theorem begins_args (has : ∀ a ∈ as, a.ReadsBack)
    (hus : Spelled (separated "," trailing (as.map GenericArg.trees)) us) :
    peekOp "=" (us ++ .leaf (.punct ">" joint) pos :: vs) = false ∧
      peekOp "<=" (us ++ .leaf (.punct ">" joint) pos :: vs) = false := by
  cases as with
  | nil =>
    cases hus
    exact ⟨rfl, by cases joint <;> rfl⟩
  | cons a as =>
    obtain ⟨ws, hws⟩ := separated_eq_append "," trailing a.trees (as.map GenericArg.trees)
    rw [List.map_cons, hws] at hus
    obtain ⟨xs, ys, rfl, hxs, -⟩ := Spelled.append_iff.1 hus
    rw [List.append_assoc]
    exact ((has a (.head _)).begins _ hxs).2

theorem opensArgs_angle {turbofish : Bool} {cs : List Tree} (has : ∀ a ∈ as, a.ReadsBack)
    (hcs : Spelled (when turbofish (op "::")) cs)
    (hus : Spelled (separated "," trailing (as.map GenericArg.trees)) us) :
    opensArgs false (cs ++ (.leaf (.punct "<" joint) pos ::
      (us ++ .leaf (.punct ">" joint') pos' :: vs))) = true := by
  cases turbofish with
  | false =>
    cases hcs
    cases joint with
    | false => rfl
    | true =>
      have hbegins : peekOp "=" (us ++ .leaf (.punct ">" joint') pos' :: vs) = false ∧
          peekOp "<=" (us ++ .leaf (.punct ">" joint') pos' :: vs) = false :=
        begins_args has hus
      change (!peekOp "=" _ && !peekOp "<=" _ || _) = true
      rw [hbegins.1, hbegins.2]
      rfl
  | true =>
    obtain ⟨_, _, _, rfl⟩ := Spelled.colons hcs
    rfl

end

theorem readsBack_angle {turbofish : Bool} {as : List GenericArg} {trailing : Bool}
    (has : ∀ a ∈ as, a.ReadsBack)
    (hfirst : as = as.filter GenericArg.isLifetime ++ as.filter (!·.isLifetime))
    (htrailing : as = [] → trailing = false) : (Args.angle turbofish as trailing).ReadsBack := by
  intro d e hd he us vs hus
  rw [Args.trees, genericArgTrees_eq] at hus hd he
  simp only [sizes_append] at hd he
  obtain ⟨fs, cs, rfl, hfs, hcs⟩ := Spelled.append_iff.1 hus
  obtain ⟨gs, rs, rfl, hgs, hrs⟩ := Spelled.append_iff.1 hfs
  obtain ⟨ts, os, rfl, hts, hos⟩ := Spelled.append_iff.1 hgs
  obtain ⟨joint, pos, rfl⟩ := Spelled.sign (c := '<') rfl hos
  obtain ⟨joint', pos', rfl⟩ := Spelled.sign (c := '>') rfl hcs
  have hle (a : GenericArg) (ha : a ∈ as) :
      sizes a.trees ≤ sizes (separated "," trailing (as.map GenericArg.trees)) :=
    sizes_le_separated (List.mem_map_of_mem ha)
  have hlength : as.length ≤ rs.length :=
    hrs.length_separated fun a ha => (has a ha).trees_ne_nil
  have hlist : Takes (angleArgs.argList (ofDepth d) ((ofDepth d).paths e)
      ((rs ++ .leaf (.punct ">" joint') pos' :: vs).length + 1))
      (rs ++ .leaf (.punct ">" joint') pos' :: vs) (.leaf (.punct ">" joint') pos' :: vs)
      (marked trailing as) := by
    refine takes_argList has (fun a ha => ?_) (fun a ha => ?_) hrs ?_
    · have := hle a ha
      omega
    · have := hle a ha
      omega
    · rw [List.length_append]
      omega
  simp only [List.append_assoc, List.cons_append, List.nil_append]
  refine ⟨opensArgs_angle has hts hrs, ?_⟩
  have hcolons : peekOp "::" (.leaf (.punct "<" joint) pos ::
      (rs ++ .leaf (.punct ">" joint') pos' :: vs)) = false := by
    cases joint <;> rfl
  obtain ⟨o, hleading, rfl⟩ := takes_leading hts hcolons
  unfold angleArgs
  refine hleading.bind ((Takes.op rfl).bind (Takes.rest.bind (hlist.bind ((Takes.op rfl).bind ?_))))
  rw [lifetimesFirst_marked (fun a => by cases a <;> rfl) hfirst htrailing]
  exact .pure

end Grammar

end WrapperGen.Source
