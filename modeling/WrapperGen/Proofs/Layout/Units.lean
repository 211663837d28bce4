import WrapperGen.Proofs.Layout.Phrases
import WrapperGen.Service.Emit
/-!
# Units that can be written

`render_writable`: a unit has a layout if the types of its operations and the path of the runtime
hold no raw tokens, since nothing else of the source gets into it but names and the visibility.
-/

namespace WrapperGen

open Source Layout

/-! ## Phrases that generated code uses -/

namespace Source

@[simp] theorem nodesParsed_append {ns ms : List Node} :
    nodesParsed (ns ++ ms) = (nodesParsed ns && nodesParsed ms) := by
  induction ns with
  | nil => rfl
  | cons n ns ih => simp [nodesParsed, ih, Bool.and_assoc]

@[simp] theorem nodesParsed_commaSeparated (ns : List Node) :
    nodesParsed (Node.commaSeparated ns) = nodesParsed ns := by
  fun_induction Node.commaSeparated ns with
  | case1 => rfl
  | case2 n => rfl
  | case3 n ns _ ih => simp [nodesParsed, ih, Node.isParsed, Node.comma, Node.op]

@[simp] theorem nodesParsed_map {α : Type} {f : α → Node} {xs : List α} :
    nodesParsed (xs.map f) = xs.all fun x => (f x).isParsed := by
  induction xs with
  | nil => rfl
  | cons x xs ih => simp [nodesParsed, ih]

theorem segmentsParsed_append {ss ts : List Segment} :
    segmentsParsed (ss ++ ts) = (segmentsParsed ss && segmentsParsed ts) := by
  induction ss with
  | nil => rfl
  | cons s ss ih => simp [segmentsParsed, ih, Bool.and_assoc]

theorem Path.isParsed_eq (p : Path) : p.isParsed = segmentsParsed p.segments := by
  cases p
  rfl

@[simp] theorem Path.isParsed_child (p : Path) (name : String) :
    (p.child name).isParsed = p.isParsed := by
  simp [child, isParsed_eq, segmentsParsed_append, segmentsParsed, Segment.plain,
    Segment.isParsed, Args.isParsed]

namespace Node

variable (e f g : Node) (ns ms : List Node)

@[simp] theorem isParsed_named (name : String) : (named name).isParsed = true := rfl

@[simp] theorem isParsed_call : (call f ns).isParsed = (f.isParsed && nodesParsed ns) := by
  simp [call, isParsed, nodesParsed]

@[simp] theorem isParsed_invoke (name : String) :
    (invoke e name ns).isParsed = (e.isParsed && nodesParsed ns) := by
  simp [invoke, isParsed, nodesParsed, op, word, absent]

@[simp] theorem isParsed_invokeAt (name : String) (t : Ty) :
    (invokeAt e name t ns).isParsed = (e.isParsed && t.isParsed && nodesParsed ns) := by
  simp [invokeAt, isParsed, nodesParsed, op, word, Args.isParsed, genericArgsParsed,
    GenericArg.isParsed, Bool.and_assoc]

@[simp] theorem isParsed_borrowMut : (borrowMut e).isParsed = e.isParsed := by
  simp [borrowMut, isParsed, nodesParsed, op, word]

@[simp] theorem isParsed_orReturn : (orReturn e).isParsed = e.isParsed := by
  simp [orReturn, isParsed, nodesParsed, op]

@[simp] theorem isParsed_await : (await e).isParsed = e.isParsed := by
  simp [await, isParsed, nodesParsed, op, word]

@[simp] theorem isParsed_unit : unit.isParsed = true := rfl

@[simp] theorem isParsed_braces : (braces ns).isParsed = nodesParsed ns := rfl

@[simp] theorem isParsed_block : (block ns).isParsed = nodesParsed ns := by
  simp [block, isParsed, nodesParsed, absent]

@[simp] theorem isParsed_asyncMove : (asyncMove ns).isParsed = nodesParsed ns := by
  simp [asyncMove, isParsed, nodesParsed, word]

@[simp] theorem isParsed_closure (moves : Bool) :
    (closure moves ns e).isParsed = (nodesParsed ns && e.isParsed) := by
  cases moves <;> simp [closure, isParsed, nodesParsed, op, word, absent]

@[simp] theorem isParsed_value : (value e).isParsed = e.isParsed := by
  simp [value, isParsed, nodesParsed, absent]

@[simp] theorem isParsed_statement : (statement e).isParsed = e.isParsed := by
  simp [statement, isParsed, nodesParsed, op]

@[simp] theorem isParsed_bind : (bind f e).isParsed = (f.isParsed && e.isParsed) := by
  simp [bind, isParsed, nodesParsed, op, word, absent]

@[simp] theorem isParsed_binding (name : String) : (binding name).isParsed = true := rfl

@[simp] theorem isParsed_bindingMut (name : String) : (bindingMut name).isParsed = true := rfl

@[simp] theorem isParsed_holding (constructor name : String) :
    (holding constructor name).isParsed = true := rfl

@[simp] theorem isParsed_arm : (arm f e).isParsed = (f.isParsed && e.isParsed) := by
  simp [arm, isParsed, nodesParsed, op, absent]

@[simp] theorem isParsed_armComma : (armComma f e).isParsed = (f.isParsed && e.isParsed) := by
  simp [armComma, isParsed, nodesParsed, op, comma, absent]

@[simp] theorem isParsed_matchOn : (matchOn e ns).isParsed = (e.isParsed && nodesParsed ns) := by
  simp [matchOn, isParsed, nodesParsed, word]

@[simp] theorem isParsed_ifElse :
    (ifElse e ns ms).isParsed = (e.isParsed && (nodesParsed ns && nodesParsed ms)) := by
  simp [ifElse, isParsed, nodesParsed, word]

@[simp] theorem isParsed_ifLet :
    (ifLet f e ns).isParsed = (f.isParsed && e.isParsed && nodesParsed ns) := by
  simp [ifLet, isParsed, nodesParsed, op, word, absent]

end Node

end Source

namespace Emit

variable {runtime : Path}

@[simp] theorem runtimeNode_isParsed (names : List String) :
    (runtimeNode runtime names).isParsed = runtime.isParsed := by
  unfold runtimeNode
  induction names generalizing runtime with
  | nil => rfl
  | cons name names ih => rw [List.foldl_cons, ih, Path.isParsed_child]

theorem runtimeType_isParsed (hruntime : runtime.isParsed) (name : String) {args : List Ty}
    (hargs : genericArgsParsed (args.map .type)) : (runtimeType runtime name args).isParsed := by
  have hlast : ∀ a, a = .none ∨ a = .angle false (args.map .type) false → Args.isParsed a := by
    rintro a (rfl | rfl)
    · rfl
    · exact hargs
  rw [Path.isParsed_eq] at hruntime
  rw [runtimeType, Path.isParsed_eq, segmentsParsed_append, hruntime]
  simp only [segmentsParsed, Segment.isParsed, Bool.and_true, Bool.true_and]
  apply hlast
  split <;> simp

theorem serviceCall_isParsed (o : Operation) : (serviceCall o).isParsed = true := by
  simp [serviceCall]

section
variable (hruntime : runtime.isParsed = true)
include hruntime

theorem deliver_isParsed (target : String) : (deliver runtime target).isParsed = true := by
  simp [deliver, nodesParsed, hruntime]

theorem dispatch_isParsed (o : Operation) : nodesParsed (dispatch runtime o) = true := by
  unfold dispatch
  cases o.shape <;> simp [nodesParsed, deliver_isParsed hruntime, serviceCall_isParsed]

theorem settle_isParsed (o : Operation) : (settle runtime o).isParsed = true := by
  unfold settle
  cases o.shape <;> simp [nodesParsed, deliver_isParsed hruntime]

theorem body_isParsed (service : String) (o : Operation) :
    nodesParsed (body runtime service o) = true := by
  have hhandle : (Ty.traitObject true [.trait false false none (.single service)] false).isParsed :=
    rfl
  simp [body, nodesParsed, hruntime, hhandle, dispatch_isParsed hruntime, settle_isParsed hruntime]

end

/-! ## Signatures -/

theorem parameter_writable {p : Parameter} (hp : p.ty.isParsed) :
    Writable (inputPieces (parameterInput p)) := by
  have hname := (node_laidOut (.binding p.name) rfl).whole .value
  simp [parameterInput, inputPieces, attributesPieces, hname, ty_writable p.ty hp]

theorem callback_writable (hruntime : runtime.isParsed = true) {payload : Ty}
    (hpayload : payload.isParsed) : Writable (inputPieces (blockInput runtime payload)) := by
  have hname := (node_laidOut (.binding callbackName) rfl).whole .value
  have hcontinuation : (runtimeType runtime "Continuation" [payload]).isParsed :=
    runtimeType_isParsed hruntime _ (by simp [genericArgsParsed, GenericArg.isParsed, hpayload])
  have htype := ty_writable (.implTrait [.trait false false none
    ⟨false, [⟨"FnOnce", .paren [.reference none true
      (.path (runtimeType runtime "Continuation" [payload]))] false none⟩]⟩] false)
    (by simp [Ty.isParsed, boundsParsed, Bound.isParsed, binderParsed, Path.isParsed,
      segmentsParsed, Segment.isParsed, Args.isParsed, tysParsed, outputParsed, hcontinuation])
  simp [blockInput, inputPieces, attributesPieces, hname, htype]

/-- The types in the wrappers of an operation hold no raw tokens. -/
structure Parsed (o : Operation) : Prop where
  parameters : ∀ p ∈ o.parameters, p.ty.isParsed
  payload : o.payload.isParsed

section
variable (hruntime : runtime.isParsed = true) {o : Operation} (ho : Parsed o)
include hruntime ho

theorem signature_writable : Writable (signaturePieces (signature runtime o)) := by
  have hinputs : AllWritable ((signature runtime o).inputs.map inputPieces) := by
    intro x hx
    obtain ⟨input, hinput, rfl⟩ := List.mem_map.1 hx
    simp only [signature, List.mem_cons, List.mem_append, List.mem_map, List.not_mem_nil,
      or_false] at hinput
    rcases hinput with (rfl | ⟨p, hp, rfl⟩) | rfl
    · simp [selfInput, inputPieces, attributesPieces, receiverPieces]
    · exact parameter_writable (ho.parameters p hp)
    · exact callback_writable hruntime ho.payload
  unfold signaturePieces
  generalize (signature runtime o).inputs.map inputPieces = inputs at hinputs ⊢
  simp [signature, genericsPieces, Generics.none, outputPieces, hinputs]

theorem method_writable (service : Option String) :
    Writable (memberPieces (method (signature runtime o) (service.map (body runtime · o)))) := by
  have hsignature := signature_writable hruntime ho
  have hclause : ∀ semicolon, Writable (clausePieces (signature runtime o).generics semicolon) :=
    fun _ => writable_text _
  cases service with
  | none =>
    simp [method, memberPieces, methodPieces, attributesPieces, hsignature, hclause]
  | some service =>
    have hbody := writable_linesOf (nodes_laidOut _ (body_isParsed hruntime service o))
    simp [method, memberPieces, methodPieces, attributesPieces, visibilityPieces, hsignature,
      hclause, hbody]

end

theorem members_writable (hruntime : runtime.isParsed = true) {os : List Operation}
    (hos : ∀ o ∈ os, Parsed o) (service : Option String) :
    Writable (membersPieces (os.map fun o =>
      method (signature runtime o) (service.map (body runtime · o)))) := by
  have heach : ∀ o ∈ os, Writable (memberPieces
      (method (signature runtime o) (service.map (body runtime · o)))) := fun o ho =>
    method_writable hruntime (hos o ho) service
  simpa [membersPieces, List.flatMap_map] using heach

/-- A unit has a layout if its types and the path of the runtime hold no raw tokens. -/
theorem render_writable (hruntime : runtime.isParsed = true) {i : Interface}
    (hi : ∀ o ∈ i.operations, Parsed o) (unitName : String) :
    Writable (render runtime i unitName).pieces := by
  have hdoc := (node_laidOut (docAttribute (docOf i.simpleName)).node rfl).whole .value
  have hextension := members_writable hruntime hi none
  have himplementation := members_writable hruntime hi (some i.simpleName)
  have hvisibility : ∀ v, Writable (visibilityPieces v) := fun v => by
    cases v <;> simp [visibilityPieces]
  have hname := path_writable .type (.single unitName) rfl
  have hnone : genericArgsParsed (([] : List Ty).map .type) := rfl
  have hself := path_writable .type _ (runtimeType_isParsed hruntime "ServiceDsl" hnone)
  rw [RenderedUnit.pieces, writable_append]
  constructor
  · simpa [render, traitPieces, attributesPieces, genericsPieces, clausePieces, Generics.none,
      Generics.predicates, hvisibility, hdoc] using hextension
  · simpa [render, implementationPieces, attributesPieces, genericsPieces, clausePieces,
      Generics.none, Generics.predicates, tyPieces, hname, hself] using himplementation

end Emit

end WrapperGen
