import WrapperGen.Service.Emit
/-!
# What the body of a wrapper does

A body is cut at the boundary that turns a panic into a failure, and the calls before it, inside it
and after it are looked at by their form: `body_cutAtBoundary`. What a call is worth does not depend on
how deep it stands, so calls are collected from all of a phrase, with types left out.
-/

namespace WrapperGen

open Source

namespace Source

/-! ## The calls in a phrase -/

mutual
/-- The calls of functions and methods in a phrase, a call before those in its parts, else in the
order of the text. -/
def Node.calls : Node → List Node
  | .form .call ns => .form .call ns :: nodesCalls ns
  | .form .methodCall ns => .form .methodCall ns :: nodesCalls ns
  | .form _ ns => nodesCalls ns
  | .group _ ns => nodesCalls ns
  | _ => []
def nodesCalls : List Node → List Node
  | [] => []
  | n :: ns => n.calls ++ nodesCalls ns
end

@[simp] theorem nodesCalls_nil : nodesCalls [] = [] := rfl

@[simp] theorem nodesCalls_cons (n : Node) (ns : List Node) :
    nodesCalls (n :: ns) = n.calls ++ nodesCalls ns := rfl

@[simp] theorem nodesCalls_append (ns ms : List Node) :
    nodesCalls (ns ++ ms) = nodesCalls ns ++ nodesCalls ms := by
  induction ns with
  | nil => rfl
  | cons n ns ih => rw [List.cons_append, nodesCalls_cons, nodesCalls_cons, ih, List.append_assoc]

namespace Node

variable (e f pat body : Node) (ns ms : List Node) (name : String)

@[simp] theorem calls_token (t : Token) : (Node.token t).calls = [] := rfl

@[simp] theorem calls_named : (named name).calls = [] := rfl

@[simp] theorem nodesCalls_commaSeparated : nodesCalls (commaSeparated ns) = nodesCalls ns := by
  induction ns with
  | nil => rfl
  | cons n ns ih =>
    cases ns with
    | nil => rfl
    | cons m ns =>
      change n.calls ++ nodesCalls (commaSeparated (m :: ns)) = _
      rw [ih]
      rfl

@[simp] theorem calls_group (d : Delim) : (Node.group d ns).calls = nodesCalls ns := rfl

@[simp] theorem calls_form {form : Form} (hcall : form ≠ .call) (hmethod : form ≠ .methodCall) :
    (Node.form form ns).calls = nodesCalls ns := by
  cases form with
  | call => exact absurd rfl hcall
  | methodCall => exact absurd rfl hmethod
  | _ => rfl

@[simp] theorem calls_form_call :
    (Node.form .call ns).calls = .form .call ns :: nodesCalls ns := rfl

@[simp] theorem calls_form_methodCall :
    (Node.form .methodCall ns).calls = .form .methodCall ns :: nodesCalls ns := rfl

@[simp] theorem calls_args (a : Args) : (Node.args a).calls = [] := rfl

@[simp] theorem calls_call : (call f ns).calls = call f ns :: (f.calls ++ nodesCalls ns) := by
  simp [call]

@[simp] theorem calls_invoke :
    (invoke e name ns).calls = invoke e name ns :: (e.calls ++ nodesCalls ns) := by
  simp [invoke, absent, op, word]

@[simp] theorem calls_invokeAt (t : Ty) :
    (invokeAt e name t ns).calls = invokeAt e name t ns :: (e.calls ++ nodesCalls ns) := by
  simp [invokeAt, op, word]

@[simp] theorem calls_borrowMut : (borrowMut e).calls = e.calls := by
  simp [borrowMut, op, word]

@[simp] theorem calls_orReturn : (orReturn e).calls = e.calls := by simp [orReturn, op]

@[simp] theorem calls_await : (await e).calls = e.calls := by simp [await, op, word]

@[simp] theorem calls_unit : unit.calls = [] := rfl

@[simp] theorem calls_block : (block ns).calls = nodesCalls ns := by
  simp [block, braces, absent]

@[simp] theorem calls_asyncMove : (asyncMove ns).calls = nodesCalls ns := by
  simp [asyncMove, braces, word]

@[simp] theorem calls_closure (moves : Bool) :
    (closure moves ns body).calls = nodesCalls ns ++ body.calls := by
  cases moves <;> simp [closure, absent, op, word]

@[simp] theorem calls_value : (value e).calls = e.calls := by simp [value, absent]

@[simp] theorem calls_statement : (statement e).calls = e.calls := by simp [statement, op]

@[simp] theorem calls_bind : (bind pat e).calls = pat.calls ++ e.calls := by
  simp [bind, absent, op, word]

@[simp] theorem calls_binding : (binding name).calls = [] := rfl

@[simp] theorem calls_bindingMut : (bindingMut name).calls = [] := rfl

@[simp] theorem calls_holding (constructor : String) : (holding constructor name).calls = [] := rfl

@[simp] theorem calls_arm : (arm pat body).calls = pat.calls ++ body.calls := by
  simp [arm, absent, op]

@[simp] theorem calls_armComma : (armComma pat body).calls = pat.calls ++ body.calls := by
  simp [armComma, absent, op, comma]

@[simp] theorem calls_matchOn : (matchOn e ns).calls = e.calls ++ nodesCalls ns := by
  simp [matchOn, braces, word]

@[simp] theorem calls_ifElse :
    (ifElse e ns ms).calls = e.calls ++ (nodesCalls ns ++ nodesCalls ms) := by
  simp [ifElse, braces, word]

@[simp] theorem calls_ifLet :
    (ifLet pat e ns).calls = pat.calls ++ (e.calls ++ nodesCalls ns) := by
  simp [ifLet, braces, absent, op, word]

/-! ## Kinds of call -/

/-- Whether it calls the function of that name. -/
def callsFunction (name : String) : Node → Bool
  | .form .call (.path p :: _) => p.isSingle name
  | _ => false

/-- Whether it calls a method of the variable of that name. -/
def callsMethodOf (variable' : String) : Node → Bool
  | .form .methodCall (.path p :: _) => p.isSingle variable'
  | _ => false

/-- Whether it hands an outcome to the handlers of a continuation. A method of the service may have
the same name. -/
def delivers : Node → Bool
  | .form .methodCall (receiver :: _ :: .token (.ident method) :: _) =>
    !(match receiver with
      | .path p => p.isSingle "__service"
      | _ => false) && ["succeed", "fail", "complete", "fail_dispatch"].contains method
  | _ => false

section Kinds

variable (f name variable' method : String) (args : List Node)

@[simp] theorem callsFunction_call : (call (named f) args).callsFunction name = (f == name) := by
  change (!false && true && f == name) = _
  simp

@[simp] theorem callsFunction_invoke (e : Node) :
    (invoke e method args).callsFunction name = false := rfl

@[simp] theorem callsFunction_invokeAt (e : Node) (t : Ty) :
    (invokeAt e method t args).callsFunction name = false := rfl

@[simp] theorem callsMethodOf_call (e : Node) : (call e args).callsMethodOf variable' = false := rfl

@[simp] theorem callsMethodOf_invoke :
    (invoke (named name) method args).callsMethodOf variable' = (name == variable') := by
  change (!false && true && name == variable') = _
  simp

@[simp] theorem callsMethodOf_invokeAt (t : Ty) :
    (invokeAt (named name) method t args).callsMethodOf variable' = (name == variable') := by
  change (!false && true && name == variable') = _
  simp

@[simp] theorem delivers_call (e : Node) : (call e args).delivers = false := rfl

@[simp] theorem delivers_invoke : (invoke (named name) method args).delivers =
    (name != "__service" && ["succeed", "fail", "complete", "fail_dispatch"].contains method) := by
  change (!(!false && true && name == "__service") && _) = _
  simp [bne]

@[simp] theorem delivers_invokeAt (t : Ty) : (invokeAt (named name) method t args).delivers =
    (name != "__service" && ["succeed", "fail", "complete", "fail_dispatch"].contains method) := by
  change (!(!false && true && name == "__service") && _) = _
  simp [bne]

end Kinds

end Node

end Source

namespace Emit

open Node

/-- The boundary around `inside`: what panics in it becomes a failure. -/
def attempt (runtime : Path) (inside : List Node) : Node :=
  call (runtimeNode runtime ["runtime", "attempt"]) [closure false [] (block inside)]

/-- The callback is run on the continuation. -/
def runCallback : Node := call (named callbackName) [borrowMut (named "__continuation")]

/-- A call that stands in a queue, and what is done with its result. -/
def enqueue (handler : Node) : Node :=
  invoke (named "__call") "enqueue" [closure true [binding "__result"] handler]

/-- The statements `ns` of a wrapper for `o` are cut at the boundary into those before it, those
inside it and those after it. -/
structure CutAtBoundary (runtime : Path) (service : String) (o : Operation)
    (ns before inside after : List Node) : Prop where
  cut : ns = before ++ bind (binding "__outcome") (attempt runtime inside) :: after
  callback : statement runCallback ∈ before
  /-- Nothing else runs the callback. -/
  callbackOnce : (nodesCalls ns).filter (callsFunction callbackName) = [runCallback]
  handle : bind (binding "__service") (orReturn (invokeAt (named "self") "service_handle"
    (.traitObject true [.trait false false none (.single service)] false) [])) ∈ inside
  call : (nodesCalls inside).filter (callsMethodOf "__service") =
    [invoke (named "__service") o.name (o.parameters.map fun p => named p.name)]
  callOnce : (nodesCalls ns).filter (callsMethodOf "__service") =
    [invoke (named "__service") o.name (o.parameters.map fun p => named p.name)]
  quietBefore : (nodesCalls before).filter delivers = []
  quietInside : o.shape ≠ .asyncCallWrapper → (nodesCalls inside).filter delivers = []
  /-- Inside, only what is queued with the call hands out outcomes, and to a clone. -/
  enqueued : o.shape = .asyncCallWrapper → ∃ handler,
    bind (binding "__call") (serviceCall o) ∈ inside ∧
    bind (binding "__completion") (invoke (named "__continuation") "clone" []) ∈ inside ∧
    statement (enqueue handler) ∈ inside ∧
    (nodesCalls inside).filter delivers = handler.calls.filter delivers ∧
    handler.calls.filter delivers ≠ [] ∧
    ∀ n ∈ handler.calls.filter delivers, n.callsMethodOf "__completion"
  settled : (nodesCalls after).filter delivers ≠ [] ∧
    ∀ n ∈ (nodesCalls after).filter delivers, n.callsMethodOf "__continuation"

variable {runtime : Path} {service : String} {o : Operation}

theorem nodesCalls_named {α : Type} (names : α → String) (as : List α) :
    nodesCalls (as.map fun a => named (names a)) = [] := by
  induction as with
  | nil => rfl
  | cons a as ih => simp [ih]

@[simp] theorem calls_serviceCall : (serviceCall o).calls = [serviceCall o] := by
  simp [serviceCall, nodesCalls_named]

@[simp] theorem calls_runtimeNode (names : List String) : (runtimeNode runtime names).calls = [] := rfl

@[simp] theorem callsFunction_runtime {a b name : String} {args : List Node} :
    (call (runtimeNode runtime [a, b]) args).callsFunction name = false := by
  change Path.isSingle ((runtime.child a).child b) name = false
  unfold Path.isSingle Path.child
  split
  · rename_i heq
    have := congrArg List.length heq
    simp at this
  · rfl

theorem deliver_calls (target : String) : (deliver runtime target).calls =
    [invoke (named "__response") "is_successful" [], invoke (named "__response") "into_body" [],
      invoke (named target) "succeed" [named "__value"],
      invoke (named target) "fail" [runtimeNode runtime ["CallError", "EmptyBody"]],
      invoke (named target) "fail" [call (runtimeNode runtime ["CallError", "http"])
        [invoke (named "__response") "code" [], invoke (named "__response") "message" []]],
      call (runtimeNode runtime ["CallError", "http"])
        [invoke (named "__response") "code" [], invoke (named "__response") "message" []],
      invoke (named "__response") "code" [], invoke (named "__response") "message" []] := by
  simp [deliver]

theorem dispatch_service : (nodesCalls (dispatch runtime o)).filter (callsMethodOf "__service") =
    [serviceCall o] := by
  cases hshape : o.shape <;> simp [dispatch, hshape, deliver_calls, serviceCall, nodesCalls_named]

theorem dispatch_callback :
    (nodesCalls (dispatch runtime o)).filter (callsFunction callbackName) = [] := by
  cases hshape : o.shape <;>
    simp [dispatch, hshape, deliver_calls, serviceCall, nodesCalls_named, callbackName]

theorem dispatch_quiet (h : o.shape ≠ .asyncCallWrapper) :
    (nodesCalls (dispatch runtime o)).filter delivers = [] := by
  cases hshape : o.shape with
  | asyncCallWrapper => exact absurd hshape h
  | _ => simp [dispatch, hshape, serviceCall, nodesCalls_named]

theorem settle_others (runtime : Path) (o : Operation) :
    (settle runtime o).calls.filter (callsMethodOf "__service") = [] ∧
    (settle runtime o).calls.filter (callsFunction callbackName) = [] := by
  cases hshape : o.shape <;> simp [settle, hshape, deliver_calls, callbackName]

theorem settle_delivers : (settle runtime o).calls.filter delivers ≠ [] ∧
    ∀ n ∈ (settle runtime o).calls.filter delivers, n.callsMethodOf "__continuation" := by
  cases hshape : o.shape <;> simp [settle, hshape, deliver_calls]

/-- What is queued with a call: a response is delivered, a failure handed on. -/
def completionHandler (runtime : Path) : Node :=
  matchOn (named "__result")
    [armComma (holding "Ok" "__response") (deliver runtime "__completion"),
      arm (holding "Err" "__cause")
        (block [statement (invoke (named "__completion") "fail" [named "__cause"])])]

theorem handler_delivers (runtime : Path) :
    (completionHandler runtime).calls.filter delivers ≠ [] ∧
    ∀ n ∈ (completionHandler runtime).calls.filter delivers, n.callsMethodOf "__completion" := by
  simp [completionHandler, deliver_calls]

theorem dispatch_enqueued (h : o.shape = .asyncCallWrapper) :
    (nodesCalls (dispatch runtime o)).filter delivers =
      (completionHandler runtime).calls.filter delivers := by
  simp [dispatch, h, completionHandler, serviceCall, nodesCalls_named]

theorem body_cutAtBoundary (runtime : Path) (service : String) (o : Operation) :
    ∃ before inside after,
      CutAtBoundary runtime service o (body runtime service o) before inside after := by
  refine ⟨[bind (binding "__busy") (invoke (named "self") "busy" []),
      bind (bindingMut "__continuation") (call (runtimeNode runtime ["Continuation", "new"]) []),
      statement runCallback,
      bind (binding "__continuation") (invoke (named "__continuation") "shared" [])],
    bind (binding "__service") (orReturn (invokeAt (named "self") "service_handle"
      (.traitObject true [.trait false false none (.single service)] false) [])) ::
      dispatch runtime o,
    [settle runtime o], ?_⟩
  obtain ⟨hservice, hcallback⟩ := settle_others runtime o
  constructor
  case cut => rfl
  case callback => exact .tail _ (.tail _ (.head _))
  case callbackOnce => simp [body, runCallback, dispatch_callback, hcallback]
  case handle => exact .head _
  case call => simp [dispatch_service, serviceCall]
  case callOnce => simp [body, dispatch_service, hservice, serviceCall]
  case quietBefore => simp [runCallback]
  case quietInside =>
    intro h
    simp [dispatch_quiet h]
  case enqueued =>
    intro h
    obtain ⟨hsome, hcompletion⟩ := handler_delivers runtime
    refine ⟨completionHandler runtime, ?_, ?_, ?_, ?_, hsome, hcompletion⟩
    · simp [dispatch, h]
    · simp [dispatch, h]
    · simp [dispatch, h, enqueue, completionHandler]
    · simp [dispatch_enqueued h]
  case settled => simpa using settle_delivers

end Emit

end WrapperGen
