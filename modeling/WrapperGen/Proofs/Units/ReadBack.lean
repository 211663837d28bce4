import WrapperGen.Proofs.Source.Items
import WrapperGen.Service.Emit
/-!
# Units that are read back

`reads_unit`: the tokens of a unit are read as a trait and an implementation of it. What is between
the parentheses and the braces of a wrapper comes in as what its readers make of it, so that a unit
can be read before anything is known of its types. `body_areStatements`: the body of a wrapper is
read back as it was built.
-/

namespace WrapperGen

open Source Grammar Node

namespace Emit

variable {runtime : Path} {service target : String} {o : Operation}

/-! ## Bodies -/

theorem segments_foldl_child (p : Path) (names : List String) :
    (names.foldl Path.child p).segments = p.segments ++ names.map .plain := by
  induction names generalizing p with
  | nil => simp
  | cons name names ih => simp [ih, Path.child]

theorem isOperand_runtimeNode (hruntime : runtime.IsWords) {names : List String}
    (hne : names ≠ []) (hnames : ∀ n ∈ names, isName n) :
    (runtimeNode runtime names).IsOperand := by
  have hsegments := segments_foldl_child runtime names
  refine isOperand_path ⟨?_, fun s hs => ?_⟩ fun htry => ?_
  · rw [hsegments]
    exact List.append_ne_nil_of_left_ne_nil hruntime.nonempty _
  · rw [hsegments] at hs
    rcases List.mem_append.1 hs with hs | hs
    · exact hruntime.segments s hs
    · obtain ⟨n, hn, rfl⟩ := List.mem_map.1 hs
      exact ⟨rfl, by simp [Segment.plain, isPathWord, hnames n hn]⟩
  · have hlength := congrArg (·.segments.length) htry
    have := List.length_pos_iff.2 hne
    have := List.length_pos_iff.2 hruntime.nonempty
    simp only [hsegments, List.length_append, List.length_map, Path.single, List.length_singleton]
      at hlength
    omega

theorem isExpr_closure {moves : Bool} {params : List Node} {body : Node}
    (hparams : ∀ p ∈ params, p.IsPattern) (hbody : body.IsExpr)
    (harrow : ∀ us, peekOp "->" (body.trees ++ us) = false) :
    (closure moves params body).IsExpr := by
  refine (isUnary_closure hparams hbody harrow).isExpr ?_
  rw [trees_closure]
  exact List.append_ne_nil_of_right_ne_nil _ (List.cons_ne_nil _ _)

/-- A method call on a variable, as a statement. -/
theorem isClosed_invoke {receiver name : String} {args : List Node} (hreceiver : isName receiver)
    (hopens : opensOperand receiver) (hname : isName name) (hargs : ∀ a ∈ args, a.IsExpr) :
    (statement (invoke (named receiver) name args)).IsClosed :=
  isClosed_statement
    ((isOperand_invoke (isOperand_named (.inl hreceiver)) hname hargs).isEarly (opens_invoke hopens))
    fun _ => rfl

theorem isOperand_response {name : String} (hname : isName name) :
    (invoke (named "__response") name []).IsOperand :=
  isOperand_invoke (isOperand_named (.inl (by decide))) hname (List.forall_mem_nil _)

theorem deliver_isBlockEarly (hruntime : runtime.IsWords) (htarget : isName target)
    (hopens : opensOperand target) : (deliver runtime target).IsBlockEarly := by
  have hsucceed : AreStatements [statement (invoke (named target) "succeed" [named "__value"])] := by
    refine areStatements_cons (isClosed_invoke htarget hopens (by decide) ?_) areStatements_nil
    exact List.forall_mem_singleton.2 (isExpr_named (by decide))
  have hempty : AreStatements [statement (invoke (named target) "fail"
      [runtimeNode runtime ["CallError", "EmptyBody"]])] := by
    refine areStatements_cons (isClosed_invoke htarget hopens (by decide) ?_) areStatements_nil
    refine List.forall_mem_singleton.2 (isOperand_runtimeNode hruntime ?_ ?_).isExpr <;> decide
  have hfail : AreStatements [statement (invoke (named target) "fail"
      [call (runtimeNode runtime ["CallError", "http"])
        [invoke (named "__response") "code" [], invoke (named "__response") "message" []]])] := by
    refine areStatements_cons (isClosed_invoke htarget hopens (by decide) ?_) areStatements_nil
    have hhttp : (runtimeNode runtime ["CallError", "http"]).IsOperand :=
      isOperand_runtimeNode hruntime (by decide) (by decide)
    refine List.forall_mem_singleton.2 (isOperand_call hhttp ?_).isExpr
    simp only [List.forall_mem_cons, List.not_mem_nil, false_implies, implies_true, and_true]
    exact ⟨(isOperand_response (by decide)).isExpr, (isOperand_response (by decide)).isExpr⟩
  have harms : ∀ a ∈ [arm (holding "Some" "__value")
        (block [statement (invoke (named target) "succeed" [named "__value"])]),
      arm (binding "None") (block [statement (invoke (named target) "fail"
        [runtimeNode runtime ["CallError", "EmptyBody"]])])], a.IsArm := by
    simp only [List.forall_mem_cons, List.not_mem_nil, false_implies, implies_true, and_true]
    exact ⟨isArm_arm (isPattern_holding (by decide) (by decide)) (isBlockEarly_block hsucceed),
      isArm_arm (isPattern_binding (by decide)) (isBlockEarly_block hempty)⟩
  have hbegins : ∃ w ts, (invoke (named "__response") "into_body" []).trees = Tree.word w ++ ts :=
    ⟨"__response", _, by rw [trees_invoke, trees_named]⟩
  refine isBlockEarly_ifElse (isOperand_response (by decide)).isExpr ?_ hfail
  exact areStatements_last
    (isLast_value (isEarly_matchOn (isOperand_response (by decide)).isExpr hbegins harms) rfl)

theorem serviceCall_isOperand (hname : isName o.name) (hparams : ∀ p ∈ o.parameters, isName p.name) :
    (serviceCall o).IsOperand := by
  refine isOperand_invoke (isOperand_named (.inl (by decide))) hname fun a ha => ?_
  obtain ⟨p, hp, rfl⟩ := List.mem_map.1 ha
  exact isExpr_named (hparams p hp)

theorem clone_isExpr : (invoke (named "__continuation") "clone" []).IsExpr :=
  (isOperand_invoke (isOperand_named (.inl (by decide))) (by decide) (List.forall_mem_nil _)).isExpr

/-- The two branches on a response that may have failed. -/
theorem isArm_results {cause : String} (hruntime : runtime.IsWords) (htarget : isName target)
    (hopens : opensOperand target) (hcause : isName cause) :
    ∀ a ∈ [armComma (holding "Ok" "__response") (deliver runtime target),
      arm (holding "Err" cause) (block [statement (invoke (named target) "fail" [named cause])])],
      a.IsArm := by
  have hfail : AreStatements [statement (invoke (named target) "fail" [named cause])] := by
    refine areStatements_cons (isClosed_invoke htarget hopens (by decide) ?_) areStatements_nil
    exact List.forall_mem_singleton.2 (isExpr_named hcause)
  simp only [List.forall_mem_cons, List.not_mem_nil, false_implies, implies_true, and_true]
  exact ⟨isArm_armComma (isPattern_holding (by decide) (by decide))
      (deliver_isBlockEarly hruntime htarget hopens),
    isArm_arm (isPattern_holding (by decide) hcause) (isBlockEarly_block hfail)⟩

theorem settle_areStatements (hruntime : runtime.IsWords) : AreStatements [settle runtime o] := by
  have hhandled : AreStatements
      [statement (invoke (named "__continuation") "fail_dispatch" [named "__error"])] := by
    refine areStatements_cons (isClosed_invoke (by decide) (by decide) (by decide) ?_)
      areStatements_nil
    exact List.forall_mem_singleton.2 (isExpr_named (by decide))
  have houtcome : (named "__outcome").IsOperand := isOperand_named (.inl (by decide))
  have hiflet : IsLast (value (ifLet (holding "Err" "__error") (named "__outcome")
      [statement (invoke (named "__continuation") "fail_dispatch" [named "__error"])])) :=
    isLast_value (isEarly_ifLet (isPattern_holding (by decide) (by decide)) houtcome.isUnary hhandled)
      ⟨rfl, rfl⟩
  unfold settle
  cases o.shape with
  | asyncCallWrapper => exact areStatements_last hiflet
  | deferredValue => exact areStatements_last hiflet
  | syncResponseWrapper =>
    refine areStatements_last (isLast_value (isEarly_matchOn houtcome.isExpr ?_
      (isArm_results hruntime (by decide) (by decide) (by decide))) rfl)
    exact ⟨"__outcome", [], by rw [trees_named, List.append_nil]⟩
  | bareValue =>
    refine areStatements_cons (isClosed_invoke (by decide) (by decide) (by decide) ?_)
      areStatements_nil
    exact List.forall_mem_singleton.2 houtcome.isExpr

theorem dispatch_areStatements (hruntime : runtime.IsWords) (hname : isName o.name)
    (hparams : ∀ p ∈ o.parameters, isName p.name) : AreStatements (dispatch runtime o) := by
  have hcall : (serviceCall o).IsOperand := serviceCall_isOperand hname hparams
  have hok {e : Node} (he : e.IsExpr) : IsLast (value (call (named "Ok") [e])) :=
    isLast_value ((isOperand_call (isOperand_named (.inl (by decide)))
      (List.forall_mem_singleton.2 he)).isEarly (opens_call (by decide))) rfl
  unfold dispatch
  cases o.shape with
  | asyncCallWrapper =>
    have hbranches : IsUnary (matchOn (named "__result")
        [armComma (holding "Ok" "__response") (deliver runtime "__completion"),
          arm (holding "Err" "__cause")
            (block [statement (invoke (named "__completion") "fail" [named "__cause"])])]) :=
      isUnary_matchOn (isExpr_named (by decide))
        (isArm_results hruntime (by decide) (by decide) (by decide))
    refine areStatements_cons (isClosed_bind (isPattern_binding (by decide)) hcall.isExpr) ?_
    refine areStatements_cons (isClosed_bind (isPattern_binding (by decide)) clone_isExpr) ?_
    refine areStatements_cons (isClosed_invoke (by decide) (by decide) (by decide) ?_)
      (areStatements_last (hok isOperand_unit.isExpr))
    refine List.forall_mem_singleton.2 (isExpr_closure
      (List.forall_mem_singleton.2 (isPattern_binding (by decide))) (hbranches.isExpr ?_) fun us => ?_)
    · rw [trees_matchOn]
      exact List.cons_ne_nil _ _
    · rw [trees_matchOn]
      rfl
  | deferredValue =>
    have hawait : AreStatements [value (await (serviceCall o))] :=
      areStatements_last (isLast_value ((isOperand_await hcall).isEarly
        (Opens.await (opens_invoke (by decide)))) rfl)
    have hargs : ∀ a ∈ [asyncMove [value (await (serviceCall o))],
        invoke (named "__continuation") "clone" []], a.IsExpr := by
      simp only [List.forall_mem_cons, List.not_mem_nil, false_implies, implies_true, and_true]
      refine ⟨(isUnary_asyncMove hawait).isExpr ?_, clone_isExpr⟩
      rw [trees_asyncMove]
      exact List.cons_ne_nil _ _
    exact areStatements_last (isLast_value ((isOperand_invoke (isOperand_named (.inr rfl))
      (by decide) hargs).isEarly (opens_invoke (by decide))) rfl)
  | syncResponseWrapper => exact areStatements_last (hok hcall.isExpr)
  | bareValue => exact areStatements_last (hok hcall.isExpr)

theorem body_areStatements (hruntime : runtime.IsWords) (hservice : isName service)
    (hname : isName o.name) (hparams : ∀ p ∈ o.parameters, isName p.name) :
    AreStatements (body runtime service o) := by
  have hself : (named "self").IsOperand := isOperand_named (.inr rfl)
  have hcontinuation : (named "__continuation").IsOperand := isOperand_named (.inl (by decide))
  have hinside : AreStatements (bind (binding "__service") (orReturn (invokeAt (named "self")
      "service_handle" (.traitObject true [.trait false false none (.single service)] false) [])) ::
      dispatch runtime o) :=
    areStatements_cons (isClosed_bind (isPattern_binding (by decide))
      (isOperand_orReturn (isOperand_invokeAt hself (by decide) (Ty.isRead_dyn hservice)
        (List.forall_mem_nil _))).isExpr) (dispatch_areStatements hruntime hname hparams)
  unfold body
  refine areStatements_cons (isClosed_bind (isPattern_binding (by decide))
    (isOperand_invoke hself (by decide) (List.forall_mem_nil _)).isExpr) ?_
  refine areStatements_cons (isClosed_bind (isPattern_bindingMut (by decide))
    (isOperand_call (isOperand_runtimeNode hruntime (by decide) (by decide)) (List.forall_mem_nil _)).isExpr) ?_
  refine areStatements_cons (isClosed_statement ((isOperand_call (isOperand_named (.inl (by decide)))
    (List.forall_mem_singleton.2 ?_)).isEarly (opens_call (by decide))) fun _ => rfl) ?_
  · refine (isUnary_borrowMut hcontinuation.isUnary).isExpr ?_
    rw [trees_borrowMut]
    exact List.cons_ne_nil _ _
  refine areStatements_cons (isClosed_bind (isPattern_binding (by decide))
    (isOperand_invoke hcontinuation (by decide) (List.forall_mem_nil _)).isExpr) ?_
  refine areStatements_cons (isClosed_bind (isPattern_binding (by decide))
    (isOperand_call (isOperand_runtimeNode hruntime (by decide) (by decide))
      (List.forall_mem_singleton.2 ?_)).isExpr) (settle_areStatements hruntime)
  refine isExpr_closure (List.forall_mem_nil _) ((isUnary_block hinside).isExpr ?_) fun us => ?_
  · rw [trees_block]
    exact List.cons_ne_nil _ _
  · rw [trees_block]
    rfl

/-! ## Units -/

/-- The parameters of a wrapper: `self`, those of the operation and the callback. -/
def inputs (runtime : Path) (o : Operation) : List FnInput :=
  selfInput :: o.parameters.map parameterInput ++ [blockInput runtime o.payload]

/-- What is written between the parentheses of a wrapper. -/
def inputTrees (runtime : Path) (o : Operation) : List Tree :=
  Tree.separated "," false ((inputs runtime o).map FnInput.trees)

theorem signature_eq (runtime : Path) (o : Operation) :
    signature runtime o = .plain o.name (inputs runtime o, false, []) := rfl

theorem trees_open (runtime : Path) (o : Operation) :
    (method (signature runtime o) none).trees = openTrees o.name (inputTrees runtime o) := by
  rw [signature_eq]
  change [] ++ (Signature.plain o.name _).trees ++ Tree.op ";" = _
  rw [Signature.trees_plain]
  simp [openTrees, inputTrees]

theorem trees_closed (runtime : Path) (o : Operation) (ns : List Node) :
    (method (signature runtime o) (some ns)).trees =
      closedTrees o.name (inputTrees runtime o) (nodesTrees ns) := by
  rw [signature_eq]
  change [] ++ (Signature.plain o.name _).trees ++ Tree.within .brace (nodesTrees ns) = _
  rw [Signature.trees_plain]
  simp [closedTrees, inputTrees]

theorem head_quote (text : String) : (Text.quote text).toList.head? = some '"' := by
  simp [Text.quote]

theorem docAttribute_eq (text : String) : docAttribute text = labelled "doc" (Text.quote text) := rfl

theorem trees_extension (runtime : Path) (i : Interface) (unitName : String) :
    (render runtime i unitName).extension.trees =
      (docAttribute (docOf i.simpleName)).trees ++ (i.visibility.trees ++ (Tree.word "trait" ++
        (Tree.word unitName ++ Tree.within .brace
          (i.operations.flatMap fun o => openTrees o.name (inputTrees runtime o))))) := by
  have hmembers : (i.operations.map fun o => method (signature runtime o) none).flatMap
      Member.trees = i.operations.flatMap fun o => openTrees o.name (inputTrees runtime o) := by
    rw [List.flatMap_map]
    exact List.flatMap_congr fun o _ => trees_open runtime o
  rw [← hmembers]
  simp [render, Trait.trees, attributesTrees, Tree.when, Generics.paramTrees, Generics.clauseTrees,
    Generics.none]

/-- The type that the wrappers are for. -/
def handle (runtime : Path) : Path := runtimeType runtime "ServiceDsl" []

theorem handle_isWords (hruntime : runtime.IsWords) : (handle runtime).IsWords :=
  hruntime.child rfl

theorem trees_implementation (runtime : Path) (i : Interface) (unitName : String) :
    (render runtime i unitName).implementation.trees =
      Tree.word "impl" ++ (Tree.word unitName ++ (Tree.word "for" ++ ((handle runtime).trees ++
        Tree.within .brace (i.operations.flatMap fun o =>
          closedTrees o.name (inputTrees runtime o)
            (nodesTrees (body runtime i.simpleName o)))))) := by
  have hmembers : (i.operations.map fun o =>
      method (signature runtime o) (some (body runtime i.simpleName o))).flatMap Member.trees =
      i.operations.flatMap fun o =>
        closedTrees o.name (inputTrees runtime o) (nodesTrees (body runtime i.simpleName o)) := by
    rw [List.flatMap_map]
    exact List.flatMap_congr fun o _ => trees_closed runtime o _
  have hself : (Ty.path (handle runtime)).trees = (handle runtime).trees := rfl
  rw [← hmembers, ← hself]
  simp [render, Implementation.trees, attributesTrees, Generics.paramTrees, Generics.clauseTrees,
    Generics.none, Path.trees_single, handle, Tree.when]

variable {V : Visibility → Prop} {J : Operation → List FnInput × Bool × List Node → Prop}
  {D : Operation → List Attribute × List Node → Prop}

/-- What is read in the place of the trait of a unit. -/
def IsTraitOf (i : Interface) (unitName : String) (V : Visibility → Prop)
    (J : Operation → List FnInput × Bool × List Node → Prop) (item : Item) : Prop :=
  isName unitName ∧ ∃ v ms, V v ∧
    List.Forall₂ (fun o m => isName o.name ∧ ∃ a, J o a ∧
      m = .method ⟨[], .inherited, .plain o.name a, none⟩) i.operations ms ∧
    item = .trait ⟨[docAttribute (docOf i.simpleName)], v, false, false, unitName, 0, .none, [], false,
      ms⟩

/-- What is read in the place of the implementation of a unit. -/
def IsImplOf (runtime : Path) (i : Interface) (unitName : String)
    (J : Operation → List FnInput × Bool × List Node → Prop)
    (D : Operation → List Attribute × List Node → Prop) (item : Item) : Prop :=
  ∃ ms, List.Forall₂ (fun o m => isName o.name ∧ ∃ a b, J o a ∧ D o b ∧
      m = .method ⟨b.1, .inherited, .plain o.name a, some b.2⟩) i.operations ms ∧
    item = .impl ⟨[], .none, some (.single unitName), .path (handle runtime), ms⟩

theorem noHash_flatMap {α : Type} {as : List α} {T : α → List Tree}
    (h : ∀ a ∈ as, ∀ us, peekOp "#" (T a ++ us) = false) : peekOp "#" (as.flatMap T) = false := by
  cases as with
  | nil => rfl
  | cons a as => exact h a (.head _) _

theorem reads_extension {d : Nat} {i : Interface} {unitName : String} {us : List Tree}
    (hvis : Passes i.visibility V) (hinputs : ∀ o ∈ i.operations, Inputs (inputTrees runtime o) (J o)) :
    Reads (ofDepth d).item ((render runtime i unitName).extension.trees ++ us) us
      (IsTraitOf i unitName V J) := by
  cases d with
  | zero => exact .failExpected
  | succ d =>
    rw [trees_extension, docAttribute_eq, List.append_assoc, List.append_assoc, List.append_assoc,
      List.append_assoc]
    refine reads_traitItem (reads_labelled (head_quote _) ?_) hvis
      (noHash_flatMap fun _ _ _ => rfl) fun d => reads_traitMembers hinputs
    cases i.visibility <;> rfl

theorem reads_implementation {d : Nat} {i : Interface} {unitName : String} {us : List Tree}
    (hruntime : runtime.IsWords) (hname : isName unitName)
    (hinputs : ∀ o ∈ i.operations, Inputs (inputTrees runtime o) (J o))
    (hbody : ∀ o ∈ i.operations, Source.Body (nodesTrees (body runtime i.simpleName o)) (D o)) :
    Reads (ofDepth d).item ((render runtime i unitName).implementation.trees ++ us) us
      (IsImplOf runtime i unitName J D) := by
  cases d with
  | zero => exact .failExpected
  | succ d =>
    rw [trees_implementation, List.append_assoc, List.append_assoc, List.append_assoc,
      List.append_assoc]
    exact reads_implItem hname (handle_isWords hruntime) (noHash_flatMap fun _ _ _ => rfl)
      fun d => reads_implMembers hinputs hbody

theorem reads_unit {d : Nat} {i : Interface} {unitName : String} (hruntime : runtime.IsWords)
    (hvis : Passes i.visibility V) (hinputs : ∀ o ∈ i.operations, Inputs (inputTrees runtime o) (J o))
    (hbody : ∀ o ∈ i.operations, Source.Body (nodesTrees (body runtime i.simpleName o)) (D o)) :
    Reads (File.reader (ofDepth d)) (render runtime i unitName).trees []
      fun file => ∃ t m, file.items = [t, m] ∧ IsTraitOf i unitName V J t ∧
        IsImplOf runtime i unitName J D m := by
  have hfirst : (render runtime i unitName).extension.trees ≠ [] := by
    rw [trees_extension, docAttribute_eq, labelled_trees (head_quote _)]
    exact List.cons_ne_nil _ _
  have hsecond : (render runtime i unitName).implementation.trees ≠ [] := by
    rw [trees_implementation]
    exact List.cons_ne_nil _ _
  have hinner : Reads (ofDepth d).innerAttributes (render runtime i unitName).trees
      (render runtime i unitName).trees (· = []) := by
    refine .manyWhile_nil ?_
    rw [RenderedUnit.trees, trees_extension, docAttribute_eq, labelled_trees (head_quote _)]
    rfl
  have hitems : Reads (Reader.manyWhile (!·.isEmpty) (ofDepth d).item)
      (render runtime i unitName).trees [] fun items =>
      ∃ t m, items = [t, m] ∧ IsTraitOf i unitName V J t ∧ IsImplOf runtime i unitName J D m := by
    refine .manyWhile_two hfirst hsecond (reads_extension hvis hinputs) fun t ht => ?_
    rw [← List.append_nil (render runtime i unitName).implementation.trees]
    exact reads_implementation hruntime ht.1 hinputs hbody
  exact hinner.andThen (hitems.bind fun items h => .pure h)

end Emit

end WrapperGen
