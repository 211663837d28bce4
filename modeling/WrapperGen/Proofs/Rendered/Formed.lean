import WrapperGen.Proofs.Rendered.Keeping
/-!
# What is read is formed

A phrase that was read from a text is formed, with all that is in it, as far as it is plain: what
is not plain (an expression, raw tokens) is not looked into. One lemma for each reader says so;
paths, bounds and binders go down by their depth, types by the depth of the grammar.
`Ty.wellRead_of_parse` puts this together.
-/

namespace WrapperGen.Source

open Reader

/-! ## Well read phrases -/

namespace Phrase

/-- If all in the phrase is plain, all in it is formed. -/
def WellRead (x : Phrase) : Prop := x.All IsPlain → x.All IsFormed

namespace WellRead

variable {x : Phrase}

theorem intro (here : x.All IsPlain → x.IsFormed) (parts : ∀ y ∈ x.children, y.WellRead) :
    x.WellRead :=
  fun h => .intro (here h) fun y hy => parts y hy (h.child hy)

theorem of_not (h : ¬ x.IsPlain) : x.WellRead := fun hx => absurd hx.here h

end WellRead

theorem wellRead_literal {n : Node} (h : isPlainLiteral n) : (node n).WellRead := by
  cases n with
  | token t => exact .intro (fun _ => trivial) nofun
  | group | type | path | projection | args | binder | form => cases h

theorem wellRead_plainPath {n : Node} (h : isPlainPath n) : (node n).WellRead := by
  cases n with
  | path p =>
    simp only [isPlainPath, Bool.and_eq_true] at h
    refine .intro (fun _ => trivial) fun y hy => ?_
    obtain ⟨s, hs, rfl⟩ := List.mem_map.1 hy
    have hargs := List.all_eq_true.1 h.1.2 s hs
    unfold Segment.isPlain at hargs
    split at hargs
    · rename_i heq
      rw [heq]
      exact .intro (fun _ => trivial) nofun
    · cases hargs
  | token | group | type | projection | args | binder | form => cases h

/-- The parts of a phrase that may or may not be there. -/
theorem wellRead_toList {α : Type} {f : α → Phrase} {o : Option α}
    (h : ∀ a, o = some a → (f a).WellRead) : ∀ y ∈ o.toList.map f, y.WellRead := by
  intro y hy
  obtain ⟨a, ha, rfl⟩ := List.mem_map.1 hy
  exact h a (Option.mem_toList.1 ha)

end Phrase

open Phrase

/-- What is read as a type; without a `+`, it is no sum of bounds. -/
def Ty.WellRead (plus : Bool) (t : Ty) : Prop :=
  (ty t).WellRead ∧ (plus = false → (ty t).IsPlain → t.isSingle)

def Segment.WellRead (s : Segment) : Prop := s.isFormed ∧ (Phrase.args s.args).WellRead

/-- What is read as a path: words, applied to what is well read. -/
def Path.WellRead (p : Path) : Prop := p.segments ≠ [] ∧ ∀ s ∈ p.segments, s.WellRead

namespace Path.WellRead

variable {p : Path}

theorem isFormed (h : p.WellRead) : p.isFormed := isFormed_iff.2 ⟨h.1, fun s hs => (h.2 s hs).1⟩

theorem phrases (h : p.WellRead) : ∀ y ∈ p.phrases, y.WellRead := by
  intro y hy
  obtain ⟨s, hs, rfl⟩ := List.mem_map.1 hy
  exact (h.2 s hs).2

end Path.WellRead

/-- The readers one level down, as those of paths need them. -/
structure PathGrammar.ReadsWell (inner : PathGrammar) : Prop where
  path : ∀ style us, (inner.path style).Keeps us
    fun p => p.WellRead ∧ (peekWord "try" us = false → p.opensType)
  bound : ∀ capture const us,
    (inner.bound capture const).Keeps us fun b => (Phrase.bound b).WellRead
  generics : ∀ us, inner.generics.Keeps us fun gs => (binder ⟨gs.params, gs.trailing⟩).WellRead

/-- The readers of types one level down. -/
class Grammar.ReadsWell (g : Grammar) : Prop where
  ty : ∀ plus us, (g.ty plus).Keeps us (Ty.WellRead plus)

namespace Grammar

variable {g : Grammar} {ts : List Tree}

/-! ## Attributes and constants -/

theorem constArgument_keeps : g.constArgument.Keeps ts fun _ => True := by
  refine .rest (.ite (fun _ => .literal) fun _ => .ite (fun _ => ?_) fun _ => .failExpected)
  exact (Keeps.within .any).bind fun _ _ _ => .pure trivial

theorem outerAttributes_keeps : g.outerAttributes.Keeps ts fun _ => True := by
  have hattribute (us : List Tree) : g.outerAttribute.Keeps us fun _ => True :=
    Keeps.op.bind fun _ vs _ => .within .any
  exact (Keeps.manyWhile hattribute).imp fun _ _ => trivial

/-! ## Lifetimes first -/

/-- Lifetimes stand in front of all else, and only what is there can end in a comma. -/
theorem lifetimesFirst_spec {α : Type} (isLifetime : α → Bool) (args : List (α × Bool)) :
    (lifetimesFirst isLifetime args).1 = (lifetimesFirst isLifetime args).1.filter isLifetime ++
        (lifetimesFirst isLifetime args).1.filter (!isLifetime ·) ∧
      ((lifetimesFirst isLifetime args).1 = [] → (lifetimesFirst isLifetime args).2 = false) ∧
      ∀ a ∈ (lifetimesFirst isLifetime args).1, ∃ comma, (a, comma) ∈ args := by
  unfold lifetimesFirst
  refine ⟨?_, fun hnil => ?_, fun a ha => ?_⟩
  · simp [List.filter_map, List.filter_filter, Function.comp_def]
  · dsimp only at hnil ⊢
    rw [List.map_eq_nil_iff.1 hnil]
    rfl
  · obtain ⟨⟨b, comma⟩, hb, rfl⟩ := List.mem_map.1 ha
    refine ⟨comma, ?_⟩
    rcases List.mem_append.1 hb with hb | hb <;> exact (List.mem_filter.1 hb).1

section Types

variable [g.ReadsWell]

theorem ty_keeps (plus : Bool) : (g.ty plus).Keeps ts (Ty.WellRead plus) :=
  ReadsWell.ty plus ts

theorem output_keeps (plus : Bool) :
    (g.output plus).Keeps ts fun o => ∀ t, o = some t → t.WellRead plus := by
  refine .test (.ite (fun _ => Keeps.op.bind fun _ us _ => ?_) fun _ => .pure nofun)
  refine (ty_keeps plus).bind fun t _ ht => .pure ?_
  rintro _ ⟨⟩
  exact ht

theorem parenArgs_keeps :
    g.parenArgs.Keeps ts fun a => (args a).WellRead ∧ a matches .paren .. := by
  unfold parenArgs
  refine (Keeps.within (.of fun us => .commaList fun vs => ty_keeps true)).bind
    fun r us hr => (output_keeps false).bind fun o _ ho => .pure ⟨?_, rfl⟩
  refine .intro (fun h => ⟨hr.2, fun t ht => (ho t ht).2 rfl ?_⟩) fun y hy => ?_
  · refine (h.child (List.mem_append_right _ (List.mem_map_of_mem ?_))).here
    exact Option.mem_toList.2 ht
  · rcases List.mem_append.1 hy with hy | hy
    · obtain ⟨t, ht, rfl⟩ := List.mem_map.1 hy
      exact (hr.1 t ht).1
    · exact wellRead_toList (fun t ht => (ho t ht).1) y hy

/-! ## Arguments -/

section Inner

variable {inner : PathGrammar} (hinner : inner.ReadsWell)

include hinner

theorem binder_keeps :
    (binder inner).Keeps ts fun b => (Phrase.binder b).WellRead :=
  Keeps.word.bind fun _ us _ => (hinner.generics us).bind fun _ _ hgs => .pure hgs

theorem binder?_keeps :
    (binder? inner).Keeps ts fun r => ∀ b, r = some b → (Phrase.binder b).WellRead := by
  refine .test (.ite (fun _ => (binder_keeps hinner).bind fun b _ hb => .pure ?_) fun _ =>
    .pure nofun)
  rintro _ ⟨⟩
  exact hb

theorem boundsUntil_keeps :
    (genericArg.boundsUntil inner).Keeps ts fun r => ∀ b ∈ r.1, (Phrase.bound b).WellRead := by
  unfold genericArg.boundsUntil
  refine (Keeps.many (P := fun r => (Phrase.bound r.1).WellRead) fun us => ?_).bind
    fun items _ h => ?_
  · refine .test (.ite (fun _ => .pure nofun) fun _ => ?_)
    refine (hinner.bound _ _ us).bind fun b vs hb => ?_
    refine .test (.ite (fun _ => Keeps.op.bind fun _ _ _ => .pure ?_) fun _ => .pure ?_)
    all_goals
      rintro _ ⟨⟩
      exact hb
  · refine .pure fun b hb => ?_
    obtain ⟨r, hr, rfl⟩ := List.mem_map.1 hb
    exact h r hr

omit hinner [g.ReadsWell] in
/-- The name in front of `=` or `:` was read as a type, so it may begin one. -/
theorem assocPath_formed {name : String} {a : Args} {x : Phrase}
    (hread : (Phrase.ty (.path (GenericArg.assocPath name a))).WellRead) (hx : x.All IsPlain)
    (ha : args a ∈ x.children) :
    ((GenericArg.assocPath name a).isFormed ∧ (GenericArg.assocPath name a).opensType) ∧
      (args a).All IsFormed := by
  have hplain : (Phrase.ty (.path (GenericArg.assocPath name a))).All IsPlain := by
    refine .intro trivial fun y hy => ?_
    rw [List.mem_singleton.1 hy]
    exact hx.child ha
  exact ⟨(hread hplain).here, (hread hplain).child (.head _)⟩

theorem genericArg_keeps :
    (g.genericArg inner).Keeps ts fun a => (Phrase.genericArg a).WellRead := by
  unfold Grammar.genericArg
  refine .rest (.ite (fun _ => ?lifetime) fun _ => .ite (fun _ => ?const) fun _ => ?type)
  case lifetime =>
    exact Keeps.lifetime.bind fun l _ hl => .pure (.intro (fun _ => hl) nofun)
  case const =>
    refine constArgument_keeps.bind fun n _ _ => .pure fun h => .intro trivial ?_
    exact List.forall_mem_singleton.2 (wellRead_literal h.here (h.child (.head _)))
  case type =>
    refine (ty_keeps true).bind fun t us ht => ?_
    have htype : (Phrase.genericArg (.type t)).WellRead :=
      .intro (fun _ => trivial) (List.forall_mem_singleton.2 ht.1)
    split
    · rename_i name a
      dsimp only
      refine .ite (fun _ => .pure htype) fun _ => ?_
      refine .op? (fun _ vs => ?eq) (.op? (fun _ vs => ?colon) ?_)
      case eq =>
        refine .rest (.ite (fun _ => ?_) fun _ => ?_)
        · refine constArgument_keeps.bind fun n _ _ => .pure fun h => ?_
          obtain ⟨hpath, ha⟩ := assocPath_formed ht.1 h (.head _)
          refine .intro hpath (List.forall_mem_cons.2 ⟨ha, List.forall_mem_singleton.2 ?_⟩)
          exact wellRead_literal h.here (h.child (.tail _ (.head _)))
        · refine (ty_keeps true).bind fun e _ he => .pure fun h => ?_
          obtain ⟨hpath, ha⟩ := assocPath_formed ht.1 h (.head _)
          refine .intro hpath (List.forall_mem_cons.2 ⟨ha, List.forall_mem_singleton.2 ?_⟩)
          exact he.1 (h.child (.tail _ (.head _)))
      case colon =>
        refine (boundsUntil_keeps hinner).bind fun r _ hr => .pure fun h => ?_
        obtain ⟨hpath, ha⟩ := assocPath_formed ht.1 h (.head _)
        refine .intro hpath (List.forall_mem_cons.2 ⟨ha, fun y hy => ?_⟩)
        obtain ⟨b, hb, rfl⟩ := List.mem_map.1 hy
        exact hr b hb (h.child (.tail _ hy))
      · exact .pure htype
    · exact .pure htype

theorem argList_keeps (fuel : Nat) :
    (angleArgs.argList g inner fuel).Keeps ts
      fun as => ∀ r ∈ as, (Phrase.genericArg r.1).WellRead := by
  induction fuel generalizing ts with
  | zero => exact .pure nofun
  | succ fuel ih =>
    refine .test (.ite (fun _ => .pure nofun) fun _ => ?_)
    refine (genericArg_keeps hinner).bind fun a us ha => ?_
    refine .test (.ite (fun _ => .pure (List.forall_mem_singleton.2 ha)) fun _ => ?_)
    refine Keeps.op.bind fun _ vs _ => ih.bind fun as _ has => .pure ?_
    exact List.forall_mem_cons.2 ⟨ha, has⟩

theorem angleArgs_keeps :
    (g.angleArgs inner).Keeps ts fun a => (args a).WellRead ∧ a matches .angle .. := by
  unfold angleArgs
  refine Keeps.op?_any.bind fun _ us _ => Keeps.op.bind fun _ vs _ => .rest ?_
  refine (argList_keeps hinner _).bind fun as _ has => Keeps.op.bind fun _ _ _ => .pure ⟨?_, rfl⟩
  obtain ⟨hfirst, hcomma, hmem⟩ := lifetimesFirst_spec GenericArg.isLifetime as
  refine .intro (fun _ => ⟨hfirst, hcomma⟩) fun y hy => ?_
  obtain ⟨a, ha, rfl⟩ := List.mem_map.1 hy
  obtain ⟨comma, ha⟩ := hmem a ha
  exact has _ ha

/-! ## Paths -/

omit hinner [g.ReadsWell] in
theorem peekWord_unique {v w : String} (hv : peekWord v ts) (hw : peekWord w ts) : v = w := by
  match ts, hv with
  | .leaf (.ident t) _ :: _, hv => exact (eq_of_beq hv).symm.trans (eq_of_beq hw)

theorem segment_keeps (exprStyle : Bool) : (g.segment inner exprStyle).Keeps ts
    fun s => s.WellRead ∧ peekWord s.name ts := by
  have hnone : (args .none).WellRead := .intro (fun _ => trivial) nofun
  have hlast (n : String) (us : List Tree) (hword : isWordText n) (hn : isName n ∨ n = "Self")
      (hpeek : peekWord n ts) : Keeps (do
        let ts ← Reader.rest
        if (!exprStyle && peekOp "<" ts && !peekOp "<=" ts && !peekOp "<<=" ts) ||
            (peekOp "::" ts && peekOp "<" (ts.drop 2)) then
          return ⟨n, ← g.angleArgs inner⟩
        else return .plain n : Reader Segment) us
        fun s => s.WellRead ∧ peekWord s.name ts := by
    have hpath : isPathWord n := by
      rcases hn with hn | rfl
      · simp [isPathWord, hn]
      · decide
    refine .rest (.ite (fun _ => ?_) fun _ => .pure ⟨⟨?_, hnone⟩, hpeek⟩)
    · refine (angleArgs_keeps hinner).bind fun a _ ha => .pure ⟨⟨?_, ha.1⟩, hpeek⟩
      cases a with
      | none | paren => cases ha.2
      | angle => simpa [Segment.isFormed, hpath, hword] using hn
    · simp [Segment.isFormed, Segment.plain, hpath, hword]
  unfold segment
  refine .rest (.ite (fun hroot => ?_) fun _ => .ite (fun hself => ?_) fun _ => ?_)
  · refine Keeps.anyWord.bind fun w _ hw => .pure ⟨⟨?_, hnone⟩, hw.2⟩
    obtain ⟨v, hv, hpeek⟩ := List.any_eq_true.1 hroot
    have hpath : isPathWord w := by
      rw [← peekWord_unique hpeek hw.2]
      simp only [List.mem_cons, List.not_mem_nil, or_false] at hv
      rcases hv with rfl | rfl | rfl | rfl <;> decide
    simp [Segment.isFormed, Segment.plain, hpath, hw.1]
  · refine Keeps.anyWord.bind fun w us hw => hlast w us hw.1 (.inr ?_) hw.2
    exact peekWord_unique hw.2 hself
  · exact Keeps.name.bind fun n us hn => hlast n us hn.2.1 (.inl hn.1) hn.2.2

theorem pathWith_keeps (exprStyle : Bool) : (g.pathWith inner exprStyle).Keeps ts
    fun p => p.WellRead ∧ (peekWord "try" ts = false → p.opensType) := by
  have hmore (us : List Tree) : (g.moreSegments inner exprStyle).Keeps us
      fun ss => ∀ s ∈ ss, s.WellRead :=
    .manyWhile fun vs => Keeps.op.bind fun _ ws _ =>
      (segment_keeps hinner exprStyle).imp fun s hs => hs.1
  unfold pathWith
  refine .op? (fun _ us => ?_) ?_
  all_goals
    refine (segment_keeps hinner exprStyle).bind fun s vs hs => (hmore vs).bind fun ss _ hss => ?_
    refine .pure ⟨⟨List.cons_ne_nil _ _, List.forall_mem_cons.2 ⟨hs.1, hss⟩⟩, fun htry => ?_⟩
  · rfl
  · have hne : s.name ≠ "try" := fun heq => by simp [← heq, hs.2] at htry
    simpa [Path.opensType] using hne

/-! ## Bounds -/

theorem traitPath_keeps {β : Type} {k : Path → Reader β} {R : β → Prop}
    (hk : ∀ p us, p.isBound → (∀ y ∈ p.phrases, y.WellRead) → (k p).Keeps us R) :
    Keeps (do
      let path ← g.pathWith inner false
      let ts ← Reader.rest
      if path.segments.getLast?.any Segment.isPlain &&
          (peekGroup .paren ts || (peekOp "::" ts && peekGroup .paren (ts.drop 2))) then
        let _ ← Reader.op? "::"
        let args ← g.parenArgs
        k { path with
          segments := path.segments.dropLast ++
            (path.segments.getLast?.map fun s => { s with args := args }).toList }
      else k path) ts R := by
  refine (pathWith_keeps hinner false).bind fun p us hp => .rest ?_
  have hparts := hp.1.phrases
  obtain ⟨⟨hne, hread⟩, -⟩ := hp
  obtain ⟨leading, segments⟩ := p
  obtain ⟨ss, last, rfl⟩ := (List.eq_nil_or_concat' segments).resolve_left hne
  have hbound {s : Segment} (hs : s.isFormed ∨ s.isCalled) : Path.isBound ⟨leading, ss ++ [s]⟩ := by
    simp only [Path.isBound, List.dropLast_concat, List.getLast?_concat, Option.any_some,
      Bool.and_eq_true, Bool.or_eq_true, List.all_eq_true]
    exact ⟨fun s hs => (hread s (List.mem_append_left _ hs)).1, hs⟩
  have hlast := (hread last (List.mem_append_right _ (.head _))).1
  refine .ite (fun _ => ?_) fun _ => hk _ us (hbound (.inl hlast)) hparts
  refine Keeps.op?_any.bind fun _ vs _ => parenArgs_keeps.bind fun a ws ha => ?_
  simp only [List.dropLast_concat, List.getLast?_concat, Option.map_some, Option.toList_some]
  refine hk _ ws (hbound (.inr ?_)) fun y hy => ?_
  · simp only [Segment.isFormed, Bool.and_eq_true] at hlast
    simp only [Segment.isCalled, Bool.and_eq_true]
    exact ⟨hlast.1, ha.2⟩
  · simp only [Path.phrases, List.map_append, List.map_singleton] at hy hparts
    rcases List.mem_append.1 hy with hy | hy
    · exact hparts y (List.mem_append_left _ hy)
    · rw [List.mem_singleton.1 hy]
      exact ha.1

omit hinner [g.ReadsWell] in
theorem wellRead_trait {inParens maybe : Bool} {b : Option Binder} {p : Path} (hp : p.isBound)
    (hparts : ∀ y ∈ p.phrases, y.WellRead) (hb : ∀ x, b = some x → (Phrase.binder x).WellRead) :
    (Phrase.bound (.trait inParens maybe b p)).WellRead := by
  refine .intro (fun _ => hp) fun y hy => ?_
  rcases List.mem_append.1 hy with hy | hy
  · exact wellRead_toList hb y hy
  · exact hparts y hy

/-- A trait with its modifiers, which may be put in parentheses. -/
theorem traitBound_keeps (allowConst : Bool) : (g.traitBound inner allowConst).Keeps ts
    fun r => ∀ b, r = some b → ∃ maybe x p, b = .trait false maybe x p ∧
      ∀ inParens, (Phrase.bound (.trait inParens maybe x p)).WellRead := by
  have hend {isConst maybe : Bool} {b c : Option Binder} {p : Path} {us : List Tree}
      (hb : ∀ x, b = some x → (Phrase.binder x).WellRead)
      (hc : ∀ x, c = some x → (Phrase.binder x).WellRead) (hp : p.isBound)
      (hparts : ∀ y ∈ p.phrases, y.WellRead) :
      Keeps (if isConst then return none else return some (.trait false maybe (b <|> c) p) :
        Reader (Option Bound)) us
        fun r => ∀ b, r = some b → ∃ maybe x p, b = .trait false maybe x p ∧
          ∀ inParens, (Phrase.bound (.trait inParens maybe x p)).WellRead := by
    refine .ite (fun _ => .pure nofun) fun _ => .pure ?_
    rintro _ ⟨⟩
    refine ⟨maybe, b <|> c, p, rfl, fun inParens => wellRead_trait hp hparts fun x hx => ?_⟩
    cases b with
    | none => exact hc x hx
    | some => exact hb x hx
  have hnone : ∀ x, none = some x → (Phrase.binder x).WellRead := nofun
  unfold traitBound
  refine (binder?_keeps hinner).bind fun before us hbefore => .rest (.get fun c _ => ?_)
  refine .ite (fun _ => (Keeps.within .any).bind fun _ vs _ => .ite (fun _ => ?_) fun _ => .throws)
    fun _ => .ite (fun _ => Keeps.word.bind fun _ vs _ => .ite (fun _ => ?_) fun _ => .throws)
      fun _ => ?_
  all_goals
    refine .given (Keeps.op?_any.bind fun question ws _ => ?_)
    refine .ite (fun _ => (binder?_keeps hinner).bind fun after xs hafter => ?_)
      fun _ => .given ?_
    · exact traitPath_keeps hinner fun p ys hp hparts => .given (hend hbefore hafter hp hparts)
    · exact traitPath_keeps hinner fun p ys hp hparts => .given (hend hbefore hnone hp hparts)

omit hinner [g.ReadsWell] in
theorem capture_keeps : capture.Keeps ts fun b => (Phrase.bound b).WellRead := by
  have hparam (us : List Tree) : captureParam.Keeps us fun _ => True := by
    refine .rest (.ite (fun _ => ?_) fun _ => .ite (fun _ => ?_) fun _ => .failExpected)
    · exact Keeps.lifetime.imp fun _ _ => trivial
    · exact Keeps.anyWord.imp fun _ _ => trivial
  refine Keeps.word.bind fun _ us _ => Keeps.op.bind fun _ vs _ => ?_
  refine (Keeps.separatedUntil hparam).bind fun _ ws _ => Keeps.op.bind fun _ _ _ => .pure ?_
  exact .of_not id

theorem boundWith_keeps (allowCapture allowConst : Bool) :
    (g.boundWith inner allowCapture allowConst).Keeps ts fun b => (Phrase.bound b).WellRead := by
  have hverbatim (ns : List Node) : (Phrase.bound (.verbatim ns)).WellRead := .of_not id
  unfold boundWith
  refine .rest (.get fun c _ => .ite (fun _ => ?lifetime) fun _ => .ite (fun _ => ?capture) fun _ =>
    .ite (fun _ => ?parens) fun _ => ?trait)
  case lifetime =>
    exact Keeps.lifetime.bind fun l _ hl => .pure (.intro (fun _ => hl) nofun)
  case capture =>
    refine capture_keeps.bind fun b _ hb => .ite (fun _ => .pure hb) fun _ => .throws
  case parens =>
    refine (Keeps.within (.of fun us => traitBound_keeps hinner allowConst)).bind fun r us hr => ?_
    split
    · obtain ⟨_, _, _, heq, hread⟩ := hr _ rfl
      cases heq
      exact .pure (hread true)
    · exact (Keeps.takenSince _).bind fun _ _ _ => .pure (hverbatim _)
  case trait =>
    refine (traitBound_keeps hinner allowConst).bind fun r us hr => ?_
    cases r with
    | none => exact (Keeps.takenSince _).bind fun _ _ _ => .pure (hverbatim _)
    | some b =>
      obtain ⟨maybe, x, p, rfl, hread⟩ := hr b rfl
      exact .pure (hread false)

/-! ## Parameters -/

omit hinner [g.ReadsWell] in
theorem lifetimesWhile_keeps (stop : List Tree → Bool) (fuel : Nat) :
    (lifetimesWhile stop fuel).Keeps ts fun ls => ∀ l ∈ ls, isLifetimeText l := by
  induction fuel generalizing ts with
  | zero => exact .pure nofun
  | succ fuel ih =>
    refine .test (.ite (fun _ => .pure nofun) fun _ => Keeps.lifetime.bind fun l us hl => ?_)
    refine .test (.ite (fun _ => ?_) fun _ => .pure (List.forall_mem_singleton.2 hl))
    refine Keeps.op.bind fun _ vs _ => ih.bind fun ls _ hls => .pure ?_
    exact List.forall_mem_cons.2 ⟨hl, hls⟩

omit hinner [g.ReadsWell] in
theorem lifetimeParam_keeps (attrs : List Node) :
    (lifetimeParam attrs).Keeps ts fun p => (Phrase.genericParam p).WellRead := by
  refine Keeps.lifetime.bind fun l us hl => ?_
  have hparam {ls : List String} (hls : ∀ l ∈ ls, isLifetimeText l) :
      (Phrase.genericParam (.lifetime attrs l ls)).WellRead := .intro (fun _ => ⟨hl, hls⟩) nofun
  refine .op? (fun _ vs => .rest ?_) ?_
  · exact (lifetimesWhile_keeps _ _).bind fun ls _ hls => .pure (hparam hls)
  · exact .pure (hparam nofun)

theorem boundsWhile_keeps (stop : List Tree → Bool) :
    (g.boundsWhile inner stop).Keeps ts fun _ => True := by
  have hgo (fuel : Nat) (us : List Tree) :
      (boundsWhile.go g inner stop fuel).Keeps us fun _ => True := by
    induction fuel generalizing us with
    | zero => exact .pure trivial
    | succ fuel ih =>
      refine .test (.ite (fun _ => .pure trivial) fun _ => ?_)
      refine (boundWith_keeps hinner false true).bind fun b vs _ => ?_
      refine .test (.ite (fun _ => ?_) fun _ => ?_)
      · exact Keeps.op.bind fun _ ws _ => (ih ws).bind fun _ _ _ => .pure trivial
      · exact .pure trivial
  exact .rest ((hgo _ _).bind fun _ _ _ => .pure trivial)

theorem typeParam_keeps (attrs : List Node) {name : Reader String}
    (hname : ∀ us, name.Keeps us fun _ => True) :
    (g.typeParam inner attrs name).Keeps ts fun p => (Phrase.genericParam p).WellRead := by
  have hty (us : List Tree) : (some <$> g.ty true).Keeps us fun _ => True :=
    .map some ((ty_keeps true).imp fun _ _ => trivial)
  refine (hname ts).bind fun n us _ => .op? (fun _ vs => ?_) (.given ?_)
  · refine (boundsWhile_keeps hinner _).bind fun _ ws _ => .op? (fun _ xs => ?_) (.given ?_)
    · exact (hty xs).bind fun _ _ _ => .pure (.of_not id)
    · exact .pure (.of_not id)
  · refine .op? (fun _ ws => ?_) (.given ?_)
    · exact (hty ws).bind fun _ _ _ => .pure (.of_not id)
    · exact .pure (.of_not id)

omit hinner in
theorem constParam_keeps (attrs : List Node) :
    (g.constParam attrs).Keeps ts fun p => (Phrase.genericParam p).WellRead := by
  refine Keeps.word.bind fun _ us _ => Keeps.name.bind fun n vs _ => Keeps.op.bind fun _ ws _ => ?_
  refine (ty_keeps true).bind fun t xs _ => .op? (fun _ ys => ?_) (.given ?_)
  · refine Keeps.bind (P := fun _ => True) (.map some constArgument_keeps) fun _ _ _ => ?_
    exact .pure (.of_not id)
  · exact .pure (.of_not id)

theorem genericParam_keeps :
    (g.genericParam inner).Keeps ts fun p => (Phrase.genericParam p).WellRead := by
  refine outerAttributes_keeps.bind fun _ us _ => .rest ?_
  refine .ite (fun _ => lifetimeParam_keeps _) fun _ => .ite (fun _ => ?_) fun _ =>
    .ite (fun _ => constParam_keeps _) fun _ => .ite (fun _ => ?_) fun _ => .failExpected
  · exact typeParam_keeps hinner _ fun us => Keeps.name.imp fun _ _ => trivial
  · exact typeParam_keeps hinner _ fun us => Keeps.anyWord.imp fun _ _ => trivial

theorem angleParams_keeps : (g.angleParams inner).Keeps ts
    fun gs => (Phrase.binder ⟨gs.params, gs.trailing⟩).WellRead := by
  refine Keeps.op.bind fun _ us _ => ?_
  refine (Keeps.separatedUntil fun vs => genericParam_keeps hinner).bind fun r vs hr => ?_
  refine Keeps.op.bind fun _ _ _ => .pure (.intro (fun _ => hr.2) fun y hy => ?_)
  obtain ⟨p, hp, rfl⟩ := List.mem_map.1 hy
  exact hr.1 p hp

end Inner

/-! ## Going down -/

theorem paths_readsWell (depth : Nat) : (g.paths depth).ReadsWell := by
  induction depth with
  | zero => exact ⟨fun _ _ => .failExpected, fun _ _ _ => .failExpected, fun _ => .failExpected⟩
  | succ depth ih =>
    exact ⟨fun style _ => pathWith_keeps ih style,
      fun capture const _ => boundWith_keeps ih capture const, fun _ => angleParams_keeps ih⟩

theorem inner_keeps : g.inner.Keeps ts PathGrammar.ReadsWell := .rest (.pure (paths_readsWell _))

theorem path_keeps (exprStyle : Bool) : (g.path exprStyle).Keeps ts
    fun p => p.WellRead ∧ (peekWord "try" ts = false → p.opensType) :=
  fun hts _ _ _ _ h => (paths_readsWell (g := g) (Tree.sizes ts + 1)).path exprStyle ts hts h

theorem bound_keeps (capture const : Bool) :
    (g.bound capture const).Keeps ts fun b => (Phrase.bound b).WellRead :=
  fun hts _ _ _ _ h => (paths_readsWell (g := g) (Tree.sizes ts + 1)).bound capture const ts hts h

theorem binderHere?_keeps :
    g.binderHere?.Keeps ts fun r => ∀ b, r = some b → (Phrase.binder b).WellRead :=
  fun hts _ _ _ _ h => binder?_keeps (paths_readsWell (g := g) _) hts h

/-- Without a `+` there is one bound. -/
theorem bounds_keeps (plus capture const : Bool) (fuel : Nat) :
    (g.bounds plus capture const fuel).Keeps ts fun r => (∀ b ∈ r.1, (Phrase.bound b).WellRead) ∧
      (plus = false → 0 < fuel → r.1.length = 1 ∧ r.2 = false) := by
  induction fuel generalizing ts with
  | zero => exact .pure ⟨nofun, fun _ h => absurd h (Nat.lt_irrefl 0)⟩
  | succ fuel ih =>
    refine (bound_keeps capture const).bind fun b us hb => ?_
    have hone : ∀ x ∈ [b], (Phrase.bound x).WellRead := List.forall_mem_singleton.2 hb
    refine .test (.ite (fun _ => .pure ⟨hone, fun _ _ => ⟨rfl, rfl⟩⟩) fun hplus => ?_)
    have hplus : plus = true := by
      cases plus
      · cases hplus
      · rfl
    subst hplus
    refine Keeps.op.bind fun _ vs _ => .test (.ite (fun _ => .pure ⟨hone, nofun⟩) fun _ => ?_)
    exact ih.bind fun r _ hr => .pure ⟨List.forall_mem_cons.2 ⟨hb, hr.1⟩, nofun⟩

theorem objectBounds_keeps (pos : Pos) (plus : Bool) :
    (g.objectBounds pos plus).Keeps ts fun r => (∀ b ∈ r.1, (Phrase.bound b).WellRead) ∧
      r.1.any Bound.isTrait ∧ (plus = false → r.1.length = 1 ∧ r.2 = false) := by
  refine .rest ((bounds_keeps plus false false _).bind fun r us hr => ?_)
  refine .ite (fun htrait => .pure ⟨hr.1, htrait, fun hplus => ?_⟩) fun _ => .throws
  exact hr.2 hplus (Nat.succ_pos _)

/-- A path, or one that starts with a type. The trait in it is a path of its own, so not empty. -/
theorem qualifiedPath_keeps (exprStyle : Bool) : (g.qualifiedPath exprStyle).Keeps ts fun r =>
    (∀ p, r = .inl p → p.WellRead ∧ (peekWord "try" ts = false → p.opensType)) ∧
      ∀ self n p, r = .inr (self, n, p) → (Phrase.ty (.projection self n p)).WellRead := by
  unfold qualifiedPath
  refine .test (.ite (fun _ => ?_) fun _ => Keeps.op.bind fun _ us _ => ?_)
  · refine (path_keeps exprStyle).bind fun p _ hp => .pure ⟨?_, fun _ _ _ h => by cases h⟩
    rintro _ ⟨⟩
    exact hp
  refine (ty_keeps true).bind fun self vs hself => ?_
  have hprojection {n : Nat} {p : Path} (hp : p.WellRead) (hn : n < p.segments.length)
      (hroot : n = 0 → p.leading = true) : (Phrase.ty (.projection self n p)).WellRead :=
    .intro (fun _ => ⟨hp.isFormed, hn, hroot⟩) (List.forall_mem_cons.2 ⟨hself.1, hp.phrases⟩)
  -- the segments behind the `>`, in front of whatever makes a path of them
  have hend {α : Type} {P : α → Prop} {k : Segment → List Segment → Reader α}
      (hk : ∀ first more us, (∀ t ∈ first :: more, t.WellRead) → (k first more).Keeps us P)
      (ws : List Tree) : Keeps (do
        let _ ← op ">"
        let _ ← op "::"
        let inner ← g.inner
        let first ← g.segment inner exprStyle
        let more ← manyWhile (peekOp "::") do
          let _ ← op "::"
          g.segment inner exprStyle
        k first more) ws P := by
    refine Keeps.op.bind fun _ xs _ => Keeps.op.bind fun _ ys _ => ?_
    refine inner_keeps.bind fun i zs hi => ?_
    have hsegment (us : List Tree) : (g.segment i exprStyle).Keeps us Segment.WellRead :=
      (segment_keeps hi exprStyle).imp fun s hs => hs.1
    refine (hsegment zs).bind fun s _ hs => ?_
    refine (Keeps.manyWhile fun us => Keeps.op.bind fun _ vs _ => hsegment vs).bind
      fun ss _ hss => hk s ss _ (List.forall_mem_cons.2 ⟨hs, hss⟩)
  refine .test (.ite (fun _ => Keeps.word.bind fun _ ws _ => ?_) fun _ => .given ?_)
  · have htrait : (some <$> g.path false).Keeps ws fun r => ∃ p, r = some p ∧ p.WellRead :=
      .map some ((path_keeps false).imp fun p hp => ⟨p, rfl, hp.1⟩)
    refine htrait.bind fun r xs hr => ?_
    obtain ⟨p, rfl, hp⟩ := hr
    refine hend (fun first more us hall => .pure ⟨fun _ h => (by cases h), ?_⟩) xs
    rintro _ _ _ ⟨⟩
    refine hprojection ⟨List.append_ne_nil_of_left_ne_nil hp.1 _, ?_⟩ ?_ fun hzero => ?_
    · exact List.forall_mem_append.2 ⟨hp.2, hall⟩
    · simp
    · exact absurd (List.length_eq_zero_iff.1 hzero) hp.1
  · refine hend (fun first more us hall => .pure ⟨fun _ h => (by cases h), ?_⟩) _
    rintro _ _ _ ⟨⟩
    exact hprojection ⟨List.cons_ne_nil _ _, hall⟩ (Nat.succ_pos _) fun _ => rfl

/-! ## Function pointers -/

theorem abi_keeps : abi.Keeps ts fun _ => True := by
  refine .test (.ite (fun _ => .pure trivial) fun _ => Keeps.word.bind fun _ us _ => ?_)
  refine .test (.ite (fun _ => Keeps.literal.bind fun n vs _ => ?_) fun _ => .pure trivial)
  split <;> exact .pure trivial

theorem fnPointerParam_keeps (attrs : List Node) (allowSelf : Bool) :
    (g.fnPointerParam attrs allowSelf).Keeps ts fun p => (Phrase.fnPointerParam p).WellRead := by
  have hparam {as : List Node} {n : Option String} {t : Ty} (hn : ∀ w, n = some w → isWordText w)
      (ht : (Phrase.ty t).WellRead) : (Phrase.fnPointerParam ⟨as, n, t⟩).WellRead :=
    .intro (fun _ => hn) (List.forall_mem_singleton.2 ht)
  have hlast {mutSelf : Bool} {as : List Node} {start us : List Tree} {n : Option String}
      (hn : ∀ w, n = some w → isWordText w) : Keeps (do
        if mutSelf then
          if n.isNone then let _ ← word "self"
          else let _ ← g.ty true
          return ⟨as, none, .verbatim (← takenSince start)⟩
        else return ⟨as, n, ← g.ty true⟩ : Reader FnPointerParam) us
        fun p => (Phrase.fnPointerParam p).WellRead := by
    refine .ite (fun _ => .ite (fun _ => Keeps.word.bind fun _ vs _ => ?_)
      fun _ => (ty_keeps true).bind fun _ vs _ => ?_) fun _ => ?_
    · exact (Keeps.takenSince _).bind fun _ _ _ => .pure (hparam nofun (.of_not id))
    · exact (Keeps.takenSince _).bind fun _ _ _ => .pure (hparam nofun (.of_not id))
    · exact (ty_keeps true).bind fun t _ ht => .pure (hparam hn ht.1)
  have hnone : ∀ w, none = some w → isWordText w := nofun
  unfold fnPointerParam
  refine outerAttributes_keeps.bind fun as us _ => .rest ?_
  refine .ite (fun _ => Keeps.word.bind fun _ vs _ => .rest ?_) fun _ => .rest ?_
  all_goals
    refine .ite (fun _ => ?_) fun _ => .given (hlast hnone)
    refine Keeps.anyWord.bind fun n ws hn => Keeps.op.bind fun _ xs _ => .given (hlast ?_)
    rintro _ ⟨⟩
    exact hn.1

/-- Only in front of the first parameter there is no comma that could be left over. -/
theorem fnPointerParams_keeps (first : Bool) (fuel : Nat) :
    (g.fnPointerParams first fuel).Keeps ts fun r =>
      (∀ p ∈ r.1, (Phrase.fnPointerParam p).WellRead) ∧
        (first = true → r.2.2 = [] → r.1 = [] → r.2.1 = false) := by
  induction fuel generalizing ts first with
  | zero => exact .pure ⟨nofun, fun _ _ _ => rfl⟩
  | succ fuel ih =>
    unfold fnPointerParams
    refine .rest (.ite (fun _ => .pure ⟨nofun, ?_⟩) fun _ => ?_)
    · rintro rfl - -
      rfl
    refine outerAttributes_keeps.bind fun as us _ => .rest ?_
    refine .ite (fun _ => ?variadic) fun _ => ?param
    case variadic =>
      have hdots {ns : List Node} {vs : List Tree} : Keeps (do
          let dots ← op "..."
          let comma := (← op? ",").toList
          return ([], !first, as.map Attribute.node ++ ns ++ dots :: comma) :
          Reader (List FnPointerParam × Bool × List Node)) vs fun r =>
          (∀ p ∈ r.1, (Phrase.fnPointerParam p).WellRead) ∧
            (first = true → r.2.2 = [] → r.1 = [] → r.2.1 = false) := by
        refine Keeps.op.bind fun _ ws _ => Keeps.op?_any.bind fun _ _ _ => .pure ⟨nofun, ?_⟩
        rintro - hnil
        simp at hnil
      refine .ite (fun _ => Keeps.anyWord.bind fun n vs _ => ?_) fun _ => .given hdots
      exact Keeps.op.bind fun _ ws _ => .given hdots
    case param =>
      refine (fnPointerParam_keeps _ first).bind fun p vs hp => .rest ?_
      refine .ite (fun _ => ?_) fun _ => ?_
      · exact .pure ⟨List.forall_mem_singleton.2 hp, nofun⟩
      · refine Keeps.op.bind fun _ ws _ => (ih false).bind fun r _ hr => .pure ?_
        exact ⟨List.forall_mem_cons.2 ⟨hp, hr.1⟩, nofun⟩

theorem fnPointer_keeps {b : Option Binder} (hb : ∀ x, b = some x → (Phrase.binder x).WellRead)
    (plus : Bool) : (g.fnPointer b).Keeps ts (Ty.WellRead plus) := by
  unfold fnPointer
  refine binderHere?_keeps.bind fun own us hown => Keeps.word?.bind fun unchecked vs _ => ?_
  refine abi_keeps.bind fun convention ws _ => Keeps.word.bind fun _ xs _ => ?_
  refine (Keeps.within (.of fun ys => .rest (fnPointerParams_keeps true _))).bind fun r zs hr => ?_
  refine (output_keeps false).bind fun o _ ho => .pure ⟨.intro (fun h => ?_) fun y hy => ?_, ?_⟩
  · refine ⟨hr.2 rfl h.here.1, fun t ht => (ho t ht).2 rfl ?_, fun t ht => ?_⟩
    · refine (h.child (List.mem_append_right _ (List.mem_map_of_mem ?_))).here
      exact Option.mem_toList.2 ht
    · exact isTextLiteral_of_isQuotedWord (h.here.2 t ht)
  · rcases List.mem_append.1 hy with hy | hy
    · rcases List.mem_append.1 hy with hy | hy
      · refine wellRead_toList (fun x hx => ?_) y hy
        cases b with
        | none => exact hown x hx
        | some => exact hb x hx
      · obtain ⟨p, hp, rfl⟩ := List.mem_map.1 hy
        exact hr.1 p hp
    · exact wellRead_toList (fun t ht => (ho t ht).1) y hy
  · exact fun _ _ => rfl

/-! ## Types -/

end Types

end Grammar

namespace Ty

variable {plus : Bool} {t : Ty}

theorem wellRead_of_not (h : ¬ (Phrase.ty t).IsPlain) : t.WellRead plus :=
  ⟨.of_not h, fun _ hplain => absurd hplain h⟩

theorem wellRead_bare {bs : List Bound} {trailing : Bool} :
    (Ty.traitObject false bs trailing).WellRead plus :=
  wellRead_of_not fun h => nomatch h.1

end Ty

/-- What is read between the parentheses of a type. -/
def Grammar.ParenContent.WellRead : ParenContent → Prop
  | .unit | .maybe _ => True
  | .lifetimes t | .single t => (Phrase.ty t).WellRead
  | .tuple es trailing =>
    (∀ e ∈ es, (Phrase.ty e).WellRead) ∧ es ≠ [] ∧ (es.length = 1 → trailing = true)

namespace Grammar

variable {g : Grammar} {ts : List Tree} [g.ReadsWell]

theorem parenContent_keeps : g.parenContent.Keeps ts ParenContent.WellRead := by
  unfold parenContent
  refine .rest (.ite (fun _ => .pure trivial) fun _ => .ite (fun _ => ?lifetimes) fun _ =>
    .ite (fun _ => ?maybe) fun _ => ?type)
  case lifetimes =>
    refine .get fun c _ => (objectBounds_keeps _ true).bind fun r _ _ => .pure ?_
    have hbare : (Ty.traitObject false r.1 r.2).WellRead true := Ty.wellRead_bare
    exact hbare.1
  case maybe =>
    refine inner_keeps.bind fun i us hi => (traitBound_keeps hi false).bind fun r vs _ => ?_
    split
    · exact .pure trivial
    · exact .failExpected
  case type =>
    refine (ty_keeps true).bind fun t us ht => .test (.ite (fun _ => .pure ht.1) fun _ => ?_)
    refine Keeps.op.bind fun _ vs _ => ?_
    refine (Keeps.commaList fun ws => ty_keeps true).bind fun r _ hr => ?_
    refine .pure ⟨?_, List.cons_ne_nil _ _, fun hlength => ?_⟩
    · exact List.forall_mem_cons.2 ⟨ht.1, fun e he => (hr.1 e he).1⟩
    · have hnil : r.1 = [] := by simpa using hlength
      simp [hnil]

theorem plusBounds_keeps : g.plusBounds.Keeps ts fun _ => True := by
  have hbound (us : List Tree) : (g.bound false false).Keeps us fun _ => True :=
    (bound_keeps false false).imp fun _ _ => trivial
  exact (Keeps.manyWhile fun us => Keeps.op.bind fun _ vs _ => hbound vs).imp fun _ _ => trivial

theorem parenType_keeps (plus : Bool) : (g.parenType plus).Keeps ts (Ty.WellRead plus) := by
  unfold parenType
  refine (Keeps.within (.of fun us => parenContent_keeps)).bind fun content us h => ?_
  have hparen {t : Ty} (ht : (Phrase.ty t).WellRead) : (Ty.paren t).WellRead plus :=
    ⟨.intro (fun _ => trivial) (List.forall_mem_singleton.2 ht), fun _ _ => rfl⟩
  cases content with
  | unit => exact .pure ⟨.intro (fun _ => ⟨fun _ => rfl, nofun⟩) nofun, fun _ _ => rfl⟩
  | lifetimes t => exact .pure (hparen h)
  | maybe b => exact plusBounds_keeps.bind fun _ _ _ => .pure Ty.wellRead_bare
  | single t =>
    dsimp only
    split
    · refine .test (.ite (fun _ => ?_) fun _ => .pure (hparen h))
      exact plusBounds_keeps.bind fun _ _ _ => .pure Ty.wellRead_bare
    · exact .pure (hparen h)
  | tuple es trailing =>
    obtain ⟨hes, hne, hone⟩ := h
    refine .pure ⟨.intro (fun _ => ⟨fun hnil => absurd hnil hne, hone⟩) fun y hy => ?_, ?_⟩
    · obtain ⟨e, he, rfl⟩ := List.mem_map.1 hy
      exact hes e he
    · exact fun _ _ => rfl

theorem bareBounds_keeps (fuel : Nat) : (g.bareBounds fuel).Keeps ts fun _ => True := by
  induction fuel generalizing ts with
  | zero => exact .pure trivial
  | succ fuel ih =>
    refine .test (.ite (fun _ => .pure trivial) fun _ => Keeps.op.bind fun _ us _ => ?_)
    refine .test (.ite (fun _ => .pure trivial) fun _ => ?_)
    exact (bound_keeps false false).bind fun b vs _ => ih.bind fun _ _ _ => .pure trivial

theorem pathType_keeps (plus : Bool) (b : Option Binder) (htry : peekWord "try" ts = false) :
    (g.pathType plus b).Keeps ts (Ty.WellRead plus) := by
  unfold pathType
  refine (qualifiedPath_keeps false).bind fun r us hr => ?_
  split
  · exact .pure ⟨hr.2 _ _ _ rfl, fun _ _ => rfl⟩
  · rename_i p
    obtain ⟨hread, hopens⟩ := hr.1 p rfl
    refine .rest (.ite (fun _ => ?_) fun _ => .ite (fun _ => ?_) fun _ => ?_)
    · refine Keeps.op.bind fun _ vs _ => Keeps.rawGroup.bind fun _ _ _ => .pure ?_
      exact Ty.wellRead_of_not id
    · refine .ite (fun _ => .rest ?_) fun _ => ?_
      · exact (bareBounds_keeps _).bind fun _ _ _ => .pure Ty.wellRead_bare
      · exact .pure Ty.wellRead_bare
    · exact .pure ⟨.intro (fun _ => ⟨hread.isFormed, hopens htry⟩) hread.phrases, fun _ _ => rfl⟩

omit [g.ReadsWell] in
/-- What begins as a path does not begin with the word that begins no type. -/
theorem peekTry_of_path {us : List Tree}
    (h : (peekName us || ["super", "self", "Self", "crate"].any (peekWord · us) ||
      peekOp "::" us || peekOp "<" us) = true) : peekWord "try" us = false := by
  match us with
  | .leaf (.ident w) _ :: _ =>
    cases hw : w == "try" with
    | false => exact hw
    | true =>
      obtain rfl := eq_of_beq hw
      cases h
  | [] | .leaf (.lifetime _) _ :: _ | .leaf (.literal _) _ :: _ | .leaf (.punct _ _) _ :: _
  | .group .. :: _ => rfl

/-- A length that is plain has nothing in it that could be malformed. -/
theorem inside_array : Inside (do
    let elem ← g.ty true
    if ← test (peekOp ";") then
      let _ ← op ";"
      return .array elem (← g.expr true)
    else return .slice elem) (Ty.WellRead plus) := by
  intro us hus scope stray t c h
  obtain ⟨elem, d, helem, h⟩ := bind_ok h
  have hread := (ty_keeps true hus helem).2.1
  obtain ⟨semicolon, d', htest, h⟩ := bind_ok h
  cases htest
  split at h
  · obtain ⟨_, d', -, h⟩ := bind_ok h
    obtain ⟨n, d'', -, h⟩ := bind_ok h
    cases h
    refine ⟨fun h => .intro trivial (List.forall_mem_cons.2 ⟨hread (h.child (.head _)), ?_⟩),
      fun _ _ => rfl⟩
    refine List.forall_mem_singleton.2 ?_
    have hn := h.child (y := node n) (.tail _ (.head _))
    rcases h.here with hliteral | hpath
    · exact wellRead_literal hliteral.1 hn
    · exact wellRead_plainPath hpath hn
  · cases h
    exact ⟨.intro (fun _ => trivial) (List.forall_mem_singleton.2 hread), fun _ _ => rfl⟩

/-- A type is well read by the readers one level down. -/
theorem typeWith_keeps (plus : Bool) : (g.typeWith plus).Keeps ts (Ty.WellRead plus) := by
  have hbounds {bs : List Bound} (hbs : ∀ b ∈ bs, (Phrase.bound b).WellRead) :
      ∀ y ∈ bs.map Phrase.bound, y.WellRead := by
    intro y hy
    obtain ⟨b, hb, rfl⟩ := List.mem_map.1 hy
    exact hbs b hb
  unfold typeWith
  refine .rest (binderHere?_keeps.bind fun b us hb => .rest (.get fun c _ => ?_))
  refine .ite (fun _ => .failExpected) fun _ => .ite (fun _ => parenType_keeps plus) fun _ =>
    .ite (fun _ => fnPointer_keeps hb plus) fun _ =>
    .ite (fun hpath => pathType_keeps plus b (peekTry_of_path hpath)) fun _ =>
    .ite (fun _ => ?dyn) fun _ => .ite (fun _ => .within inside_array) fun _ =>
    .ite (fun _ => ?pointer) fun _ => .ite (fun _ => ?reference) fun _ =>
    .ite (fun _ => ?never) fun _ => .ite (fun _ => ?impl) fun _ => .ite (fun _ => ?infer) fun _ =>
    .ite (fun _ => ?lifetime) fun _ => .failExpected
  case dyn =>
    refine Keeps.word.bind fun _ vs _ => Keeps.op?_any.bind fun star ws _ => ?_
    refine (objectBounds_keeps _ plus).bind fun r xs hr => .ite (fun _ => ?_) fun _ => ?_
    · exact (Keeps.takenSince _).bind fun _ _ _ => .pure (Ty.wellRead_of_not id)
    · refine .pure ⟨.intro (fun _ => hr.2.1) (hbounds hr.1), fun hplus _ => ?_⟩
      simp [Ty.isSingle, hr.2.2 hplus]
  case pointer =>
    have hpointer {mutable : Bool} {e : Ty} (he : e.WellRead false) :
        (Ty.pointer mutable e).WellRead plus :=
      ⟨.intro (fun h => he.2 rfl (h.child (.head _)).here) (List.forall_mem_singleton.2 he.1),
        fun _ _ => rfl⟩
    refine Keeps.op.bind fun _ vs _ => .rest ?_
    refine .ite (fun _ => ?_) fun _ => .ite (fun _ => ?_) fun _ => .failExpected
    all_goals
      exact Keeps.word.bind fun _ ws _ => (ty_keeps false).bind fun e _ he => .pure (hpointer he)
  case reference =>
    refine Keeps.op.bind fun _ vs _ => Keeps.lifetime?.bind fun l ws hl => ?_
    refine Keeps.word?.bind fun _ xs _ => (ty_keeps false).bind fun e _ he => .pure ⟨?_, ?_⟩
    · refine .intro (fun h => ⟨?_, hl⟩) (List.forall_mem_singleton.2 he.1)
      exact he.2 rfl (h.child (.head _)).here
    · exact fun _ _ => rfl
  case never =>
    exact Keeps.op.bind fun _ _ _ => .pure ⟨.intro (fun _ => trivial) nofun, fun _ _ => rfl⟩
  case impl =>
    refine Keeps.word.bind fun _ vs _ => .rest ?_
    refine (bounds_keeps plus true true _).bind fun r ws hr => ?_
    refine .ite (fun htrait => .pure ⟨.intro (fun h => ?_) (hbounds hr.1), fun hplus _ => ?_⟩)
      fun _ => .throws
    · obtain ⟨b, hb, hkind⟩ := List.any_eq_true.1 htrait
      refine List.any_eq_true.2 ⟨b, hb, ?_⟩
      have hplain := (h.child (List.mem_map_of_mem hb)).here
      cases b with
      | trait => rfl
      | verbatim => exact hplain.elim
      | lifetime | capture => cases hkind
    · simp [Ty.isSingle, hr.2 hplus (Nat.succ_pos _)]
  case infer =>
    exact Keeps.word.bind fun _ _ _ => .pure ⟨.intro (fun _ => trivial) nofun, fun _ _ => rfl⟩
  case lifetime =>
    exact (objectBounds_keeps _ true).bind fun _ _ _ => .pure Ty.wellRead_bare

end Grammar

instance Grammar.ofDepth_readsWell (depth : Nat) : (ofDepth depth).ReadsWell := by
  induction depth with
  | zero => exact ⟨fun _ _ => .failExpected⟩
  | succ depth ih => exact ⟨fun plus _ => typeWith_keeps plus⟩

/-- A type that was read from a text is formed, as far as it is plain. -/
theorem Ty.wellRead_of_parse {text : String} {t : Ty} (h : Ty.parse text = .ok t) :
    (ty t).WellRead :=
  (readText_keeps (p := (·.ty true)) (fun _ _ => Grammar.ReadsWell.ty true _) h : t.WellRead true).1

end WrapperGen.Source
