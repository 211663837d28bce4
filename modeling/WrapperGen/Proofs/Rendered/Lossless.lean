import WrapperGen.Proofs.Rendered.Formed
import WrapperGen.Proofs.Rendered.Plain
import WrapperGen.Proofs.Types.Payloads
import WrapperGen.Service.Json
/-!
# Types and their texts

A plain type is read from its own text (`Ty.IsPlainSource.parse_render`), so a plain type is known
by its text, and the operations of services by the report that a scan writes. `Ty.render_lossless`
says all three. Closing the gap around `::` also joins it to a colon in front of it, so that for
other types the text need not be one of a type (`Ty.render_joins_colons`).
-/

namespace WrapperGen

namespace Source

open Phrase

/-- A type that stands in some text and has nothing in it but what is plain. -/
structure Ty.IsPlainSource (t : Ty) : Prop where
  stands : ∃ text, Ty.parse text = .ok t
  plain : (ty t).All IsPlain

namespace Ty.IsPlainSource

variable {t t' : Ty}

theorem parse_render (h : t.IsPlainSource) : Ty.parse t.render = .ok t := by
  obtain ⟨text, hread⟩ := h.stands
  exact Ty.parse_render ((Ty.wellRead_of_parse hread h.plain).and h.plain)

theorem render_inj (h : t.IsPlainSource) (h' : t'.IsPlainSource) (heq : t.render = t'.render) :
    t = t' := by
  have hread := h.parse_render
  rw [heq, h'.parse_render] at hread
  exact (Except.ok.inj hread).symm

end Ty.IsPlainSource

end Source

open Source

/-! ## Reports -/

/-- Elements that one map tells apart as far as another does. -/
theorem map_eq_of_map_eq {α β γ : Type} {f : α → β} {g : α → γ} {xs ys : List α}
    (h : ∀ x ∈ xs, ∀ y ∈ ys, f x = f y → g x = g y) (heq : xs.map f = ys.map f) :
    xs.map g = ys.map g := by
  induction xs generalizing ys with
  | nil =>
    rw [List.map_nil, eq_comm, List.map_eq_nil_iff] at heq
    rw [heq]
  | cons x xs ih =>
    obtain _ | ⟨y, ys⟩ := ys
    · cases heq
    · obtain ⟨hxy, heq⟩ := List.cons.inj heq
      rw [List.map_cons, List.map_cons, h x (.head _) y (.head _) hxy,
        ih (fun a ha b hb => h a (.tail _ ha) b (.tail _ hb)) heq]

theorem ResultShape.key_injective : Function.Injective ResultShape.key := by
  intro a b h
  cases a <;> cases b <;> first | rfl | simp [key] at h

theorem Parameter.json_inj {p q : Parameter} (hp : p.ty.IsPlainSource) (hq : q.ty.IsPlainSource)
    (h : p.json = q.json) : p = q := by
  obtain ⟨name, t⟩ := p
  obtain ⟨name', t'⟩ := q
  simp only [json, Text.Json.object.injEq, List.cons.injEq, Prod.mk.injEq, Text.Json.text.injEq,
    true_and, and_true] at h
  have ht : t = t' := hp.render_inj hq h.2
  rw [h.1, ht]

theorem Operation.json_inj {o o' : Operation} (ho : ∀ t ∈ o.types, t.IsPlainSource)
    (ho' : ∀ t ∈ o'.types, t.IsPlainSource) (h : o.json = o'.json) : o = o' := by
  obtain ⟨name, ps, shape, payload⟩ := o
  obtain ⟨name', ps', shape', payload'⟩ := o'
  simp only [json, Text.Json.object.injEq, List.cons.injEq, Prod.mk.injEq, Text.Json.text.injEq,
    Text.Json.array.injEq, true_and, and_true] at h
  obtain ⟨rfl, hparameters, hshape, hpayload, -⟩ := h
  have hps : ps.map id = ps'.map id := map_eq_of_map_eq (fun p hp q hq => ?_) hparameters
  rw [List.map_id, List.map_id] at hps
  rw [hps, ResultShape.key_injective hshape,
    (ho payload (.head _)).render_inj (ho' payload' (.head _)) hpayload]
  exact Parameter.json_inj (ho p.ty (.tail _ (List.mem_map_of_mem hp)))
    (ho' q.ty (.tail _ (List.mem_map_of_mem hq)))

/-- The types that a report names. -/
def ScanReport.types (r : ScanReport) : List Ty :=
  r.interfaces.flatMap fun i => i.operations.flatMap Operation.types

theorem ScanReport.mem_types {r : ScanReport} {i : Interface} {o : Operation} {t : Ty}
    (hi : i ∈ r.interfaces) (ho : o ∈ i.operations) (ht : t ∈ o.types) : t ∈ r.types :=
  List.mem_flatMap.2 ⟨i, hi, List.mem_flatMap.2 ⟨o, ho, ht⟩⟩

theorem ScanReport.operations_of_json {r r' : ScanReport} (h : ∀ t ∈ r.types, t.IsPlainSource)
    (h' : ∀ t ∈ r'.types, t.IsPlainSource) (heq : r.json = r'.json) :
    r.interfaces.map (·.operations) = r'.interfaces.map (·.operations) := by
  simp only [json, Text.Json.object.injEq, List.cons.injEq, Prod.mk.injEq, Text.Json.array.injEq,
    true_and] at heq
  refine map_eq_of_map_eq (fun i hi j hj hij => ?_) heq.1
  simp only [Interface.json, Text.Json.object.injEq, List.cons.injEq, Prod.mk.injEq,
    Text.Json.array.injEq, true_and, and_true] at hij
  have hoperations : i.operations.map id = j.operations.map id :=
    map_eq_of_map_eq (fun o ho o' ho' hjson => Operation.json_inj
      (fun t ht => h t (mem_types hi ho ht)) (fun t ht => h' t (mem_types hj ho' ht)) hjson)
      hij.2.2.2.2.2
  rwa [List.map_id, List.map_id] at hoperations

namespace Source

open Phrase

/-! ## What a text tells of its type -/

/-- A plain type is read back from its text, two of them never share a text, and the report of a
scan tells what the operations of all services are. -/
theorem Ty.render_lossless (t t' : Ty) (r r' : ScanReport) :
    (t.IsPlainSource → Ty.parse t.render = .ok t) ∧
      (t.IsPlainSource → t'.IsPlainSource → t.render = t'.render → t = t') ∧
      ((∀ u ∈ r.types, u.IsPlainSource) → (∀ u ∈ r'.types, u.IsPlainSource) →
        r.json = r'.json → r.interfaces.map (·.operations) = r'.interfaces.map (·.operations)) :=
  ⟨fun h => h.parse_render, fun h h' => h.render_inj h',
    fun h h' => ScanReport.operations_of_json h h'⟩

theorem Phrase.all_iff {P : Phrase → Prop} {x : Phrase} :
    x.All P ↔ P x ∧ ∀ y ∈ x.children, y.All P :=
  ⟨fun h => ⟨h.here, fun _ hy => h.child hy⟩, fun h => .intro h.1 h.2⟩

/-- `&'a mut Foo<'a, [u8; 32], Item = dyn Fn(&str) -> u8 + Send>`. -/
def borrowedTable : Ty :=
  .reference (some "'a") true (.path ⟨false, [⟨"Foo", .angle false
    [.lifetime "'a", .type (.array (.named "u8") (.token (.literal "32"))),
      .assocType "Item" .none (.traitObject true
        [.trait false false none ⟨false, [⟨"Fn", .paren [.reference none false (.named "str")] false
          (some (.named "u8"))⟩]⟩, .trait false false none (.single "Send")] false)] false⟩]⟩)

theorem all_borrowedTable : (ty borrowedTable).All fun y => y.IsFormed ∧ y.IsPlain := by
  have hwords : isWordText "Foo" ∧ isWordText "u8" ∧ isWordText "Item" ∧ isWordText "Fn" ∧
      isWordText "str" ∧ isWordText "Send" ∧ isLifetimeText "'a" ∧ isNumberText "32" := by decide
  have hnames : isName "Foo" ∧ isName "u8" ∧ isName "Item" ∧ isName "Fn" ∧ isName "str" ∧
      isName "Send" := by decide
  simp [@Phrase.all_iff _ (ty _), @Phrase.all_iff _ (args _), @Phrase.all_iff _ (genericArg _),
    @Phrase.all_iff _ (bound _), @Phrase.all_iff _ (node _), borrowedTable, Ty.named, Path.single,
    Segment.plain, Phrase.children, Path.phrases, IsFormed, IsPlain, Path.isFormed, Path.opensType,
    Path.isBound, Segment.isFormed, Segment.isCalled, isPathWord, GenericArg.assocPath,
    GenericArg.isLifetime, Bound.isTrait, Ty.isSingle, isPlainLiteral, Node.trees, Token.trees,
    hwords, hnames]
  rfl

theorem isPlainSource_borrowedTable : borrowedTable.IsPlainSource where
  stands := ⟨borrowedTable.render, Ty.parse_render all_borrowedTable⟩
  plain := all_borrowedTable.mono fun _ h => h.2

theorem borrowedTable_lossless :
    borrowedTable.IsPlainSource ∧ Ty.parse borrowedTable.render = .ok borrowedTable :=
  have hlossless := Ty.render_lossless borrowedTable borrowedTable ⟨[], [], []⟩ ⟨[], [], []⟩
  ⟨isPlainSource_borrowedTable, hlossless.1 isPlainSource_borrowedTable⟩

example :
    borrowedTable.render = "&'a mut Foo<'a, [u8 ; 32], Item = dyn Fn (&str) -> u8 + Send>" := by
  decide +kernel

/-- A path that begins with `::` after a colon: the two are run together, and what is written is no
type. -/
theorem Ty.render_joins_colons :
    ¬ ∀ text t, Ty.parse text = .ok t → Ty.parse t.render = .ok t := by
  intro h
  have hread : ((Ty.parse "fn(x: ::a::B)").toOption.any fun t =>
      t.render == "fn (x :::a::B)" && (Ty.parse t.render).toOption.isNone) = true := by
    decide +kernel
  cases hparse : Ty.parse "fn(x: ::a::B)" with
  | error e => simp [hparse, Except.toOption] at hread
  | ok t => simp [hparse, h _ t hparse, Except.toOption] at hread

end Source

end WrapperGen
