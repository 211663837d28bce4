import WrapperGen.Proofs.Rendered.Functions
/-!
# Plain types are read from any spelling

What each kind of phrase needs of its parts, put together by induction: a type that is formed and
plain, and so is everything in it, is read from any tokens that spell its own
(`Ty.readTrees_of_spelled`).
-/

namespace WrapperGen.Source

open Tree

namespace Phrase

/-- What a phrase has to give for the phrases around it to be taken off their tokens. -/
def ReadsBack : Phrase → Prop
  | ty t => t.ReadsBack
  | args a => a.ReadsBack
  | genericArg a => a.ReadsBack
  | bound b => b.isWritten
  | binder b => (binder b).IsFormed ∧ ∀ p ∈ b.params, (genericParam p).IsPlain
  | genericParam p => (genericParam p).IsPlain
  | fnPointerParam p => p.ReadsBack
  | node _ => True

end Phrase

open Phrase

theorem Bound.isWritten_of {b : Bound} (hformed : (bound b).IsFormed) (hplain : (bound b).IsPlain)
    (hparts : ∀ y ∈ (bound b).children, y.ReadsBack) : b.isWritten := by
  cases b with
  | lifetime name => trivial
  | trait inParens maybe b p =>
    refine ⟨hformed, fun s hs => ?_, fun x hx => ?_⟩
    · exact hparts (.args s.args) (List.mem_append_right _ (List.mem_map_of_mem hs))
    · refine hparts (.binder x) (List.mem_append_left _ (List.mem_map_of_mem ?_))
      exact Option.mem_toList.2 hx
  | capture | verbatim => exact hplain.elim

theorem GenericArg.readsBack_of {a : GenericArg} (hformed : (genericArg a).IsFormed)
    (hplain : (genericArg a).IsPlain) (hparts : ∀ y ∈ (genericArg a).children, y.ReadsBack) :
    a.ReadsBack := by
  have hassoc {name : String} {b : Args} (hb : b.ReadsBack)
      (h : (assocPath name b).isFormed ∧ (assocPath name b).opensType) :
      (Ty.path (assocPath name b)).ReadsBack := by
    refine Ty.readsBack_path h.1 h.2 fun s hs => ?_
    rwa [List.mem_singleton.1 hs]
  cases a with
  | lifetime name => exact Grammar.readsBack_lifetime name
  | type t => exact Grammar.readsBack_type (hparts (.ty t) (.head _))
  | const n => exact Grammar.readsBack_const hplain
  | assocType name b t =>
    exact Grammar.readsBack_assocType (hassoc (hparts (.args b) (.head _)) hformed) hformed.1
      (hparts (.ty t) (.tail _ (.head _)))
  | assocConst name b n =>
    exact Grammar.readsBack_assocConst (hassoc (hparts (.args b) (.head _)) hformed) hformed.1 hplain
  | constraint name b bs trailing =>
    obtain ⟨rfl, hcolon⟩ := hplain
    exact Grammar.readsBack_constraint (hassoc (hparts (.args b) (.head _)) hformed) hformed.1
      (fun c hc => hparts (.bound c) (.tail _ (List.mem_map_of_mem hc))) hcolon

theorem Args.readsBack_of {a : Args} (hformed : (args a).IsFormed)
    (hparts : ∀ y ∈ (args a).children, y.ReadsBack) : a.ReadsBack := by
  cases a with
  | none => trivial
  | angle turbofish as trailing =>
    exact Grammar.readsBack_angle (fun b hb => hparts (.genericArg b) (List.mem_map_of_mem hb))
      hformed.1 hformed.2
  | paren ts trailing o =>
    refine Grammar.takes_parenArgs (fun t ht => ?_) hformed.1 fun t ht => ⟨?_, hformed.2 t ht⟩
    · exact hparts (.ty t) (List.mem_append_left _ (List.mem_map_of_mem ht))
    · refine hparts (.ty t) (List.mem_append_right _ (List.mem_map_of_mem ?_))
      exact Option.mem_toList.2 ht

theorem FnPointerParam.readsBack_of {p : FnPointerParam} (hplain : (fnPointerParam p).IsPlain)
    (hparts : ∀ y ∈ (fnPointerParam p).children, y.ReadsBack) : p.ReadsBack := by
  obtain ⟨attrs, name, t⟩ := p
  obtain ⟨rfl, hname⟩ := hplain
  have ht : t.ReadsBack := hparts (.ty t) (.head _)
  cases name with
  | none => exact readsBack_unnamed ht
  | some name => exact readsBack_named (hname name rfl).1 ht (hname name rfl).2

theorem Ty.readsBack_of {t : Ty} (hformed : (ty t).IsFormed) (hplain : (ty t).IsPlain)
    (hparts : ∀ y ∈ (ty t).children, y.ReadsBack) : t.ReadsBack := by
  have hinside {e : Ty} (he : .ty e ∈ (ty t).children) : e.ReadsBack := hparts (.ty e) he
  cases t with
  | array e n => exact readsBack_array (hinside (.head _)) hplain
  | fnPointer b unchecked abi ps trailing variadic o =>
    obtain ⟨rfl, -⟩ := hplain
    refine readsBack_fnPointer (fun x hx => ?_) hformed.2.2 (fun p hp => ?_) hformed.1
      fun e he => ⟨hinside ?_, hformed.2.1 e he⟩
    · refine hparts (.binder x) (List.mem_append_left _ (List.mem_append_left _ ?_))
      exact List.mem_map_of_mem (Option.mem_toList.2 hx)
    · refine hparts (.fnPointerParam p) (List.mem_append_left _ (List.mem_append_right _ ?_))
      exact List.mem_map_of_mem hp
    · exact List.mem_append_right _ (List.mem_map_of_mem (Option.mem_toList.2 he))
  | implTrait bs trailing =>
    cases hplain
    exact readsBack_impl (fun b hb => hparts (.bound b) (List.mem_map_of_mem hb)) hformed
  | infer => exact readsBack_infer
  | never => exact readsBack_never
  | invocation | verbatim => exact hplain.elim
  | paren e => exact readsBack_paren (hinside (.head _))
  | path p =>
    refine readsBack_path hformed.1 hformed.2 fun s hs => ?_
    exact hparts (.args s.args) (List.mem_map_of_mem hs)
  | projection self position p =>
    refine readsBack_projection (hinside (.head _)) hformed.1 (fun s hs => ?_) hformed.2.1 hformed.2.2
    exact hparts (.args s.args) (List.mem_cons_of_mem _ (List.mem_map_of_mem hs))
  | pointer mutable e => exact readsBack_pointer (hinside (.head _)) hformed
  | reference lifetime mutable e => exact readsBack_reference (hinside (.head _)) hformed.1
  | slice e => exact readsBack_slice (hinside (.head _))
  | traitObject hasDyn bs trailing =>
    obtain ⟨rfl, rfl⟩ := hplain
    exact readsBack_dyn (fun b hb => hparts (.bound b) (List.mem_map_of_mem hb)) hformed
  | tuple es trailing =>
    exact readsBack_tuple (fun e he => hinside (List.mem_map_of_mem he)) hformed.1 hformed.2

theorem Phrase.readsBack {x : Phrase} (h : x.All fun y => y.IsFormed ∧ y.IsPlain) : x.ReadsBack := by
  induction h with
  | @intro x here _ hparts =>
    cases x with
    | ty t => exact Ty.readsBack_of here.1 here.2 hparts
    | args a => exact Args.readsBack_of here.1 hparts
    | genericArg a => exact GenericArg.readsBack_of here.1 here.2 hparts
    | bound b => exact Bound.isWritten_of here.1 here.2 hparts
    | binder b =>
      obtain ⟨ps, trailing⟩ := b
      exact ⟨here.1, fun p hp => hparts (.genericParam p) (List.mem_map_of_mem hp)⟩
    | genericParam p => exact here.2
    | fnPointerParam p => exact FnPointerParam.readsBack_of here.2 hparts
    | node n => trivial

/-- A plain type is read from any spelling of its tokens. -/
theorem Ty.readTrees_of_spelled {t : Ty}
    (h : (Phrase.ty t).All fun y => y.IsFormed ∧ y.IsPlain) {us : List Tree}
    (hus : Spelled t.trees us) : readTrees (·.ty true) us = .ok t := by
  have hread : t.ReadsBack := Phrase.readsBack h
  have hsizes : sizes t.trees ≤ 4 * sizes us + 8 := by
    rw [spelled_sizes hus]
    omega
  have hend : endsPhrase true [] := rfl
  have htakes := hread.takes hsizes hus hend (.inl rfl)
  rw [List.append_nil] at htakes
  exact htakes.run

end WrapperGen.Source
