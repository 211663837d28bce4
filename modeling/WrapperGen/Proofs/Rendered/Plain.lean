import WrapperGen.Proofs.Rendered.Lexed
import WrapperGen.Proofs.Rendered.Spelled
/-!
# Plain phrases may be written

The trees of a plain phrase are words, signs and round or square brackets (`Phrase.isOneLine`), so
that what is written of them on one line is read as these trees.
-/

namespace WrapperGen.Source

open Tree

/-- The trees may be written in a type. -/
def OneLine (ts : List Tree) : Prop := ∃ ls, Flat ts ls

namespace OneLine

variable {ts us : List Tree}

theorem nil : OneLine [] := ⟨[], .nil⟩

theorem append (h : OneLine ts) (h' : OneLine us) : OneLine (ts ++ us) := by
  obtain ⟨ks, hks⟩ := h
  obtain ⟨ls, hls⟩ := h'
  exact ⟨_, hks.append hls⟩

theorem word {text : String} (h : isWordText text) : OneLine (word text) :=
  ⟨_, .word (.ident h) .nil⟩

theorem tick {name : String} (h : isLifetimeText name) : OneLine (tick name) :=
  ⟨_, .word (.lifetime h) .nil⟩

theorem lit {text : String} (h : isNumberText text ∨ isQuotedWord text) : OneLine (lit text) :=
  h.elim (fun h => ⟨_, .word (.number h) .nil⟩) fun h => ⟨_, .word (.quoted h) .nil⟩

theorem within {d : Delim} (hd : d ≠ .brace) (h : OneLine ts) : OneLine (within d ts) := by
  obtain ⟨ls, hls⟩ := h
  exact ⟨_, .group hd hls .nil⟩

theorem when {b : Bool} (h : b = true → OneLine ts) : OneLine (when b ts) := by
  cases b with
  | false => exact .nil
  | true => exact h rfl

theorem sign {text : String} {c : Char} (htext : text.toList = [c]) (hc : isSign c) :
    OneLine (op text) := by
  rw [op, Token.op, Token.trees, htext]
  exact ⟨_, .sign hc (by simp) .nil⟩

/-- An operator of two characters. -/
theorem signs {text : String} {c d : Char} (htext : text.toList = [c, d]) (hc : isSign c)
    (hd : isSign d) : OneLine (op text) := by
  rw [op, Token.op, Token.trees, htext]
  exact ⟨_, .sign hc (fun _ => ⟨_, _, _, rfl⟩) (.sign hd (by simp) .nil)⟩

theorem separated {sep : String} {trailing : Bool} {ts : List (List Tree)} (hsep : OneLine (op sep))
    (hts : ∀ t ∈ ts, OneLine t) : OneLine (separated sep trailing ts) := by
  induction ts with
  | nil => exact .nil
  | cons t ts ih =>
    have ht := hts t (.head _)
    cases ts with
    | nil =>
      refine ht.append ?_
      cases trailing with
      | false => exact .nil
      | true => exact hsep
    | cons u ts => exact (ht.append hsep).append (ih fun v hv => hts v (.tail _ hv))

theorem flatMap {ts : List (List Tree)} (hts : ∀ t ∈ ts, OneLine t) :
    OneLine (ts.flatMap (op "::" ++ ·)) := by
  induction ts with
  | nil => exact .nil
  | cons t ts ih =>
    have hcolons : OneLine (op "::") := .signs rfl rfl rfl
    exact (hcolons.append (hts t (.head _))).append (ih fun v hv => hts v (.tail _ hv))

end OneLine

/-! ## Paths -/

theorem Path.isWordText_of_isFormed {p : Path} (h : p.isFormed) :
    ∀ s ∈ p.segments, isWordText s.name := by
  intro s hs
  have hformed := (isFormed_iff.1 h).2 s hs
  simp only [Segment.isFormed, Bool.and_eq_true] at hformed
  exact hformed.1.2

theorem Path.isWordText_of_isBound {p : Path} (h : p.isBound) :
    ∀ s ∈ p.segments, isWordText s.name := by
  rcases isBound_cases h with hformed | ⟨ss, last, hsegments, hfront, hcalled⟩
  · exact isWordText_of_isFormed hformed
  · intro s hs
    rw [hsegments] at hs
    rcases List.mem_append.1 hs with hs | hs
    · have hformed := hfront s hs
      simp only [Segment.isFormed, Bool.and_eq_true] at hformed
      exact hformed.1.2
    · rw [List.mem_singleton.1 hs]
      simp only [Segment.isCalled, Bool.and_eq_true] at hcalled
      exact hcalled.1.2

theorem Segment.oneLine {s : Segment} (hword : isWordText s.name) (hargs : OneLine s.args.trees) :
    OneLine s.trees := by
  obtain ⟨name, args⟩ := s
  exact (OneLine.word hword).append hargs

theorem oneLine_segments {ss : List Segment} (hwords : ∀ s ∈ ss, isWordText s.name)
    (hargs : ∀ s ∈ ss, OneLine s.args.trees) : ∀ t ∈ segmentTrees ss, OneLine t := by
  rw [segmentTrees_eq]
  intro t ht
  obtain ⟨s, hs, rfl⟩ := List.mem_map.1 ht
  exact Segment.oneLine (hwords s hs) (hargs s hs)

theorem Path.oneLine {p : Path} (hwords : ∀ s ∈ p.segments, isWordText s.name)
    (hargs : ∀ s ∈ p.segments, OneLine s.args.trees) : OneLine p.trees := by
  obtain ⟨leading, segments⟩ := p
  have hcolons : OneLine (op "::") := .signs rfl rfl rfl
  exact (OneLine.when fun _ => hcolons).append
    (.separated hcolons (oneLine_segments hwords hargs))

theorem oneLine_projection {self : List Tree} {position : Nat} {leading : Bool} {ss : List Segment}
    (hself : OneLine self) (hwords : ∀ s ∈ ss, isWordText s.name)
    (hargs : ∀ s ∈ ss, OneLine s.args.trees) :
    OneLine (projectionTrees self position leading (segmentTrees ss)) := by
  have hcolons : OneLine (op "::") := .signs rfl rfl rfl
  have hless : OneLine (op "<") := .sign (c := '<') rfl rfl
  have hgreater : OneLine (op ">") := .sign (c := '>') rfl rfl
  have hsegments := oneLine_segments hwords hargs
  have hopen : OneLine (op "<" ++ self) := hless.append hself
  have hleading : OneLine (when leading (op "::")) := .when fun _ => hcolons
  unfold projectionTrees
  split
  · exact ((hopen.append hgreater).append hleading).append (.separated hcolons hsegments)
  · have htrait : OneLine (separated "::" false ((segmentTrees ss).take position)) :=
      .separated hcolons fun t ht => hsegments t (List.mem_of_mem_take ht)
    have hrest : OneLine (((segmentTrees ss).drop position).flatMap (op "::" ++ ·)) :=
      .flatMap fun t ht => hsegments t (List.mem_of_mem_drop ht)
    have has : OneLine (word "as") := .word (by decide)
    exact ((((hopen.append has).append hleading).append htrait).append hgreater).append hrest

/-! ## Phrases -/

/-- What a phrase has to give for the phrases around it to be written. -/
def Phrase.isOneLine : Phrase → Prop
  | ty t => OneLine t.trees
  | args a => OneLine a.trees
  | genericArg a => OneLine a.trees
  | bound b => OneLine b.trees
  | binder b => OneLine b.trees
  | genericParam p => OneLine p.trees
  | fnPointerParam p => OneLine p.trees
  | node _ => True

open Phrase

theorem oneLine_list {α : Type} {f : α → List Tree} {sep : String} {c : Char} {trailing : Bool}
    {as : List α} (hsep : sep.toList = [c]) (hc : isSign c) (has : ∀ a ∈ as, OneLine (f a)) :
    OneLine (separated sep trailing (as.map f)) := by
  refine .separated (.sign hsep hc) fun t ht => ?_
  obtain ⟨a, ha, rfl⟩ := List.mem_map.1 ht
  exact has a ha

theorem oneLine_output {o : Option Ty} (ho : ∀ t, o = some t → OneLine t.trees) :
    OneLine (outputTrees o) := by
  cases o with
  | none => exact .nil
  | some t =>
    have harrow : OneLine (op "->") := .signs rfl rfl rfl
    exact harrow.append (ho t rfl)

theorem oneLine_literal {n : Node} (h : isPlainLiteral n) : OneLine n.trees := by
  rcases trees_plainLiteral h with ⟨text, htext, rfl, htrees⟩ | ⟨digits, -, hdigits, htrees⟩ | rfl | rfl
  · rw [htrees]
    exact .lit htext
  · rw [htrees]
    have hminus : OneLine (op "-") := .sign (c := '-') rfl rfl
    exact hminus.append (.lit (.inl hdigits))
  · exact .word (by decide)
  · exact .word (by decide)

section Parts

/-- What is not plain has no line to be written on. -/
theorem GenericParam.oneLine {p : GenericParam} (hformed : (genericParam p).IsFormed)
    (hplain : (genericParam p).IsPlain) : OneLine p.trees := by
  cases p with
  | lifetime attrs name bounds =>
    cases hplain
    have hcolon : OneLine (op ":") := .sign (c := ':') rfl rfl
    have hbounds : OneLine (separated "+" false (bounds.map tick)) :=
      oneLine_list (c := '+') rfl rfl fun b hb => .tick (hformed.2 b hb)
    rw [GenericParam.trees]
    exact (OneLine.nil.append (.tick hformed.1)).append (.when fun _ => hcolon.append hbounds)
  | type | const => exact hplain.elim

theorem Binder.oneLine {b : Binder} (hparts : ∀ y ∈ (binder b).children, y.isOneLine) :
    OneLine b.trees := by
  obtain ⟨ps, trailing⟩ := b
  have hparams : OneLine (separated "," trailing (ps.map GenericParam.trees)) :=
    oneLine_list (c := ',') rfl rfl fun p hp => hparts (.genericParam p) (List.mem_map_of_mem hp)
  have hfor : OneLine (word "for") := .word (by decide)
  have hless : OneLine (op "<") := .sign (c := '<') rfl rfl
  have hgreater : OneLine (op ">") := .sign (c := '>') rfl rfl
  rw [Binder.trees, genericParamTrees_eq]
  exact ((hfor.append hless).append hparams).append hgreater

theorem oneLine_binder {b : Option Binder} (hb : ∀ x, b = some x → OneLine x.trees) :
    OneLine (binderTrees b) := by
  cases b with
  | none => exact .nil
  | some x => exact hb x rfl

theorem Bound.oneLine {b : Bound} (hformed : (bound b).IsFormed) (hplain : (bound b).IsPlain)
    (hparts : ∀ y ∈ (bound b).children, y.isOneLine) : OneLine b.trees := by
  cases b with
  | lifetime name => exact .tick hformed
  | trait inParens maybe b p =>
    have hmaybe : OneLine (op "?") := .sign (c := '?') rfl rfl
    have hbinder : OneLine (binderTrees b) := oneLine_binder fun x hx => by
      refine hparts (.binder x) (List.mem_append_left _ (List.mem_map_of_mem ?_))
      exact Option.mem_toList.2 hx
    have hpath : OneLine p.trees := Path.oneLine (Path.isWordText_of_isBound hformed) fun s hs =>
      hparts (.args s.args) (List.mem_append_right _ (List.mem_map_of_mem hs))
    have hinner : OneLine (when maybe (op "?") ++ binderTrees b ++ p.trees) :=
      ((OneLine.when fun _ => hmaybe).append hbinder).append hpath
    rw [Bound.trees]
    cases inParens with
    | false => exact hinner
    | true => exact .within (by decide) hinner
  | capture | verbatim => exact hplain.elim

theorem GenericArg.oneLine {a : GenericArg} (hformed : (genericArg a).IsFormed)
    (hplain : (genericArg a).IsPlain) (hparts : ∀ y ∈ (genericArg a).children, y.isOneLine) :
    OneLine a.trees := by
  have hequals : OneLine (op "=") := .sign (c := '=') rfl rfl
  have hcolon : OneLine (op ":") := .sign (c := ':') rfl rfl
  have hname {name : String} {b : Args} (h : (assocPath name b).isFormed) : isWordText name :=
    Path.isWordText_of_isFormed h ⟨name, b⟩ (.head _)
  cases a with
  | lifetime name => exact .tick hformed
  | type t => exact hparts (.ty t) (.head _)
  | const n => exact oneLine_literal hplain
  | assocType name b t =>
    have hargs : OneLine b.trees := hparts (.args b) (.head _)
    have ht : OneLine t.trees := hparts (.ty t) (.tail _ (.head _))
    exact (((OneLine.word (hname hformed.1)).append hargs).append hequals).append ht
  | assocConst name b n =>
    have hargs : OneLine b.trees := hparts (.args b) (.head _)
    exact (((OneLine.word (hname hformed.1)).append hargs).append hequals).append
      (oneLine_literal hplain)
  | constraint name b bs trailing =>
    have hargs : OneLine b.trees := hparts (.args b) (.head _)
    have hbounds : OneLine (separated "+" trailing (bs.map Bound.trees)) :=
      oneLine_list (c := '+') rfl rfl fun c hc =>
        hparts (.bound c) (.tail _ (List.mem_map_of_mem hc))
    rw [GenericArg.trees, boundTrees_eq]
    exact (((OneLine.word (hname hformed.1)).append hargs).append hcolon).append hbounds

theorem oneLine_tys {ts : List Ty} {trailing : Bool} (hts : ∀ t ∈ ts, OneLine t.trees) :
    OneLine (separated "," trailing (tyTrees ts)) := by
  rw [tyTrees_eq]
  exact oneLine_list (c := ',') rfl rfl hts

theorem Args.oneLine {a : Args} (hparts : ∀ y ∈ (args a).children, y.isOneLine) :
    OneLine a.trees := by
  cases a with
  | none => exact .nil
  | angle turbofish as trailing =>
    have hcolons : OneLine (op "::") := .signs rfl rfl rfl
    have hless : OneLine (op "<") := .sign (c := '<') rfl rfl
    have hgreater : OneLine (op ">") := .sign (c := '>') rfl rfl
    have hargs : OneLine (separated "," trailing (as.map GenericArg.trees)) :=
      oneLine_list (c := ',') rfl rfl fun b hb => hparts (.genericArg b) (List.mem_map_of_mem hb)
    rw [Args.trees, genericArgTrees_eq]
    exact (((OneLine.when fun _ => hcolons).append hless).append hargs).append hgreater
  | paren ts trailing o =>
    have hinputs : OneLine (separated "," trailing (tyTrees ts)) := oneLine_tys fun t ht =>
      hparts (.ty t) (List.mem_append_left _ (List.mem_map_of_mem ht))
    have houtput : OneLine (outputTrees o) := oneLine_output fun t ht => by
      refine hparts (.ty t) (List.mem_append_right _ (List.mem_map_of_mem ?_))
      exact Option.mem_toList.2 ht
    exact (OneLine.within (by decide) hinputs).append houtput

theorem FnPointerParam.oneLine {p : FnPointerParam} (hformed : (fnPointerParam p).IsFormed)
    (hplain : (fnPointerParam p).IsPlain) (hparts : ∀ y ∈ (fnPointerParam p).children, y.isOneLine) :
    OneLine p.trees := by
  obtain ⟨attrs, name, t⟩ := p
  obtain ⟨rfl, -⟩ := hplain
  have ht : OneLine t.trees := hparts (.ty t) (.head _)
  have hcolon : OneLine (op ":") := .sign (c := ':') rfl rfl
  cases name with
  | none => exact ht
  | some name =>
    rw [trees_named]
    exact (OneLine.word (hformed name rfl)).append (hcolon.append ht)

theorem oneLine_length {n : Node} (h : (isPlainLiteral n ∧ n.trees.length = 1) ∨ isPlainPath n) :
    OneLine n.trees := by
  rcases h with ⟨hliteral, -⟩ | hpath
  · exact oneLine_literal hliteral
  · match n, hpath with
    | .path p, hpath =>
      simp only [isPlainPath, Bool.and_eq_true] at hpath
      obtain ⟨⟨hp, hplain⟩, -⟩ := hpath
      refine Path.oneLine (Path.isWordText_of_isFormed hp) fun s hs => ?_
      have hnone := List.all_eq_true.1 hplain s hs
      obtain ⟨name, a⟩ := s
      cases a with
      | none => exact .nil
      | angle | paren => cases hnone

theorem oneLine_abi {convention : Option (Option String)}
    (h : ∀ text, convention = some (some text) → isQuotedWord text) :
    OneLine (Grammar.abiTrees convention) := by
  have hextern : OneLine (word "extern") := .word (by decide)
  match convention with
  | none => exact .nil
  | some none => exact hextern
  | some (some text) => exact hextern.append (.lit (.inr (h text rfl)))

theorem Ty.oneLine {t : Ty} (hformed : (ty t).IsFormed) (hplain : (ty t).IsPlain)
    (hparts : ∀ y ∈ (ty t).children, y.isOneLine) : OneLine t.trees := by
  have hinside {e : Ty} (he : .ty e ∈ (ty t).children) : OneLine e.trees := hparts (.ty e) he
  have hbounds {bs : List Bound} {trailing : Bool} (hbs : ∀ b ∈ bs, .bound b ∈ (ty t).children) :
      OneLine (separated "+" trailing (boundTrees bs)) := by
    rw [boundTrees_eq]
    exact oneLine_list (c := '+') rfl rfl fun b hb => hparts (.bound b) (hbs b hb)
  cases t with
  | array e n =>
    have hsemicolon : OneLine (op ";") := .sign (c := ';') rfl rfl
    exact .within (by decide)
      (((hinside (.head _)).append hsemicolon).append (oneLine_length hplain))
  | fnPointer b unchecked abi ps trailing variadic o =>
    obtain ⟨rfl, habi⟩ := hplain
    have hbinder : OneLine (binderTrees b) := oneLine_binder fun x hx => by
      refine hparts (.binder x) (List.mem_append_left _ (List.mem_append_left _ ?_))
      exact List.mem_map_of_mem (Option.mem_toList.2 hx)
    have hparams : OneLine (separated "," trailing (ps.map FnPointerParam.trees)) :=
      oneLine_list (c := ',') rfl rfl fun p hp => by
        refine hparts (.fnPointerParam p) (List.mem_append_left _ (List.mem_append_right _ ?_))
        exact List.mem_map_of_mem hp
    have houtput : OneLine (outputTrees o) := oneLine_output fun e he =>
      hinside (List.mem_append_right _ (List.mem_map_of_mem (Option.mem_toList.2 he)))
    have hfn : OneLine (word "fn") := .word (by decide)
    rw [trees_fnPointer]
    exact hbinder.append ((OneLine.when fun _ => .word (by decide)).append
      ((oneLine_abi habi).append (hfn.append ((OneLine.within (by decide) hparams).append houtput))))
  | implTrait bs trailing =>
    have himpl : OneLine (word "impl") := .word (by decide)
    exact himpl.append (hbounds fun b hb => List.mem_map_of_mem hb)
  | infer => exact .word (by decide)
  | never => exact .sign (c := '!') rfl rfl
  | invocation | verbatim => exact hplain.elim
  | paren e => exact .within (by decide) (hinside (.head _))
  | path p =>
    exact Path.oneLine (Path.isWordText_of_isFormed hformed.1) fun s hs =>
      hparts (.args s.args) (List.mem_map_of_mem hs)
  | projection self position p =>
    obtain ⟨leading, ss⟩ := p
    exact oneLine_projection (hinside (.head _)) (Path.isWordText_of_isFormed hformed.1) fun s hs =>
      hparts (.args s.args) (List.mem_cons_of_mem _ (List.mem_map_of_mem hs))
  | pointer mutable e =>
    have hstar : OneLine (op "*") := .sign (c := '*') rfl rfl
    have hword : OneLine (word (if mutable then "mut" else "const")) :=
      .word (by cases mutable <;> decide)
    exact (hstar.append hword).append (hinside (.head _))
  | reference lifetime mutable e =>
    have hand : OneLine (op "&") := .sign (c := '&') rfl rfl
    have hlifetime : OneLine ((lifetime.map tick).getD []) := by
      cases lifetime with
      | none => exact .nil
      | some name => exact .tick (hformed.2 name rfl)
    have hmut : OneLine (when mutable (word "mut")) := .when fun _ => .word (by decide)
    rw [Ty.trees]
    exact ((hand.append hlifetime).append hmut).append (hinside (.head _))
  | slice e => exact .within (by decide) (hinside (.head _))
  | traitObject hasDyn bs trailing =>
    have hdyn : OneLine (when hasDyn (word "dyn")) := .when fun _ => .word (by decide)
    rw [Ty.trees]
    exact hdyn.append (hbounds fun b hb => List.mem_map_of_mem hb)
  | tuple es trailing =>
    exact .within (by decide) (oneLine_tys fun e he => hinside (List.mem_map_of_mem he))

theorem Phrase.oneLine {x : Phrase} (h : x.All fun y => y.IsFormed ∧ y.IsPlain) : x.isOneLine := by
  induction h with
  | @intro x here _ hparts =>
    cases x with
    | ty t => exact Ty.oneLine here.1 here.2 hparts
    | args a => exact Args.oneLine hparts
    | genericArg a => exact GenericArg.oneLine here.1 here.2 hparts
    | bound b => exact Bound.oneLine here.1 here.2 hparts
    | binder b => exact Binder.oneLine hparts
    | genericParam p => exact GenericParam.oneLine here.1 here.2
    | fnPointerParam p => exact FnPointerParam.oneLine here.1 here.2 hparts
    | node n => trivial

end Parts

/-! ## Types -/

theorem readText_of_lex {α : Type} {p : Grammar → Reader α} {text : String} {us : List Tree}
    (h : Lexer.lex text = .ok us) : readText p text = readTrees p us := by
  unfold readText
  rw [h]

/-- A plain type is read from its text. -/
theorem Ty.parse_render {t : Ty} (h : (Phrase.ty t).All fun y => y.IsFormed ∧ y.IsPlain) :
    Ty.parse t.render = .ok t := by
  obtain ⟨ls, hls⟩ : OneLine t.trees := Phrase.oneLine h
  obtain ⟨us, hlex, hus⟩ := hls.lex hls.writes.compact
  exact (readText_of_lex hlex).trans (Ty.readTrees_of_spelled h hus)

end WrapperGen.Source
