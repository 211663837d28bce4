import WrapperGen.Proofs.Traits.ParameterNames
import WrapperGen.Proofs.Units.Bodies
/-!
# What the names in a wrapper refer to

A wrapper binds variables of its own around the names of its parameters, and names in an emitted
body mean whatever stands nearest. `forwarded_names_iff`: the callback is always the wrapper's own
parameter, and so is an argument of the service call, unless its name is one of the three that are
bound before the call.
-/

namespace WrapperGen

open Source

namespace Source

/-! ## Variables in reach -/

/-- What a name in a body can mean: a parameter, by its place without `self`, or a variable that is
bound in the body. -/
inductive Variable
  | parameter (place : Nat)
  | inner
deriving DecidableEq, Repr

/-- Names and what they mean, the nearest first. -/
abbrev Variables := List (String × Variable)

mutual
/-- The names that a pattern binds, in the order of the text. The name of a constant counts, too. -/
def Node.binds : Node → List String
  | .form .bindingPat [_, _, .token (.ident name), below] => name :: below.binds
  | .form _ ns => nodesBind ns
  | .group _ ns => nodesBind ns
  | _ => []
def nodesBind : List Node → List String
  | [] => []
  | n :: ns => n.binds ++ nodesBind ns
end

namespace Variables

variable (vs : Variables)

/-- What a name means: the nearest variable that is the same identifier. -/
def find (name : String) : Option Variable :=
  (vs.find? fun v => unraw v.1 == unraw name).map (·.2)

/-- The variables where a pattern has bound its names. -/
def under (pattern : Node) : Variables := pattern.binds.reverse.map (·, .inner) ++ vs

/-- The variables after a statement. -/
def after : Node → Variables
  | .form .letStmt [_, _, pattern, _, _] => vs.under pattern
  | _ => vs

/-- The variables where a condition holds. -/
def given : Node → Variables
  | .form .letCond [_, pattern, _, _] => vs.under pattern
  | _ => vs

end Variables

/-! ## Calls with the variables in their reach -/

mutual
/-- The calls in a phrase, as `Node.calls` has them, each with the variables that are in its reach.
Names are bound by `let`, by the parameters of closures and by the patterns of branches. -/
def Node.callsIn (vs : Variables) : Node → List (Node × Variables)
  | .form .call ns => (.form .call ns, vs) :: nodesCallsIn vs ns
  | .form .methodCall ns => (.form .methodCall ns, vs) :: nodesCallsIn vs ns
  | .form .letStmt [_, _, _, value, _] => value.callsIn vs
  | .form .letCond [_, _, _, value] => value.callsIn vs
  | .form .closure [_, _, _, _, _, _, params, _, _, body] => body.callsIn (vs.under params)
  | .form .arm [_, pattern, guard, _, body, _] =>
    guard.callsIn (vs.under pattern) ++ body.callsIn (vs.under pattern)
  | .form .ifExpr [_, condition, yes, no] =>
    condition.callsIn vs ++ (yes.callsIn (vs.given condition) ++ no.callsIn vs)
  | .form _ ns => nodesCallsIn vs ns
  | .group .brace ns => blockCallsIn vs ns
  | .group _ ns => nodesCallsIn vs ns
  | _ => []
def nodesCallsIn (vs : Variables) : List Node → List (Node × Variables)
  | [] => []
  | n :: ns => n.callsIn vs ++ nodesCallsIn vs ns
/-- The calls in statements, each of which is in the reach of those before it. -/
def blockCallsIn (vs : Variables) : List Node → List (Node × Variables)
  | [] => []
  | n :: ns => n.callsIn vs ++ blockCallsIn (vs.after n) ns
end

section

variable (vs : Variables)

@[simp] theorem nodesCallsIn_nil : nodesCallsIn vs [] = [] := rfl

@[simp] theorem nodesCallsIn_cons (n : Node) (ns : List Node) :
    nodesCallsIn vs (n :: ns) = n.callsIn vs ++ nodesCallsIn vs ns := rfl

@[simp] theorem blockCallsIn_nil : blockCallsIn vs [] = [] := rfl

@[simp] theorem blockCallsIn_cons (n : Node) (ns : List Node) :
    blockCallsIn vs (n :: ns) = n.callsIn vs ++ blockCallsIn (vs.after n) ns := rfl

@[simp] theorem nodesCallsIn_commaSeparated (ns : List Node) :
    nodesCallsIn vs (Node.commaSeparated ns) = nodesCallsIn vs ns := by
  induction ns with
  | nil => rfl
  | cons n ns ih =>
    cases ns with
    | nil => rfl
    | cons m ns =>
      change n.callsIn vs ++ nodesCallsIn vs (Node.commaSeparated (m :: ns)) = _
      rw [ih]
      rfl

end

namespace Node

variable (vs : Variables) (e f pat body : Node) (ns ms : List Node) (name : String)

@[simp] theorem callsIn_named : (named name).callsIn vs = [] := rfl

/-- What holds brackets only has the calls that stand in them. -/
theorem nodesCallsIn_arguments :
    nodesCallsIn vs [.group .paren (commaSeparated ns)] = nodesCallsIn vs ns := by
  rw [nodesCallsIn_cons, nodesCallsIn_nil, List.append_nil]
  exact nodesCallsIn_commaSeparated vs ns

@[simp] theorem callsIn_call :
    (call f ns).callsIn vs = (call f ns, vs) :: (f.callsIn vs ++ nodesCallsIn vs ns) := by
  rw [← nodesCallsIn_arguments]
  rfl

@[simp] theorem callsIn_invoke :
    (invoke e name ns).callsIn vs =
      (invoke e name ns, vs) :: (e.callsIn vs ++ nodesCallsIn vs ns) := by
  rw [← nodesCallsIn_arguments]
  rfl

@[simp] theorem callsIn_invokeAt (t : Ty) :
    (invokeAt e name t ns).callsIn vs =
      (invokeAt e name t ns, vs) :: (e.callsIn vs ++ nodesCallsIn vs ns) := by
  rw [← nodesCallsIn_arguments]
  rfl

@[simp] theorem callsIn_borrowMut : (borrowMut e).callsIn vs = e.callsIn vs := List.append_nil _

@[simp] theorem callsIn_orReturn : (orReturn e).callsIn vs = e.callsIn vs := List.append_nil _

@[simp] theorem callsIn_await : (await e).callsIn vs = e.callsIn vs := List.append_nil _

@[simp] theorem callsIn_unit : unit.callsIn vs = [] := rfl

@[simp] theorem callsIn_block : (block ns).callsIn vs = blockCallsIn vs ns := List.append_nil _

@[simp] theorem callsIn_asyncMove : (asyncMove ns).callsIn vs = blockCallsIn vs ns :=
  List.append_nil _

@[simp] theorem callsIn_closure (moves : Bool) : (closure moves ns body).callsIn vs =
    body.callsIn (vs.under (.form .row (commaSeparated ns))) := rfl

@[simp] theorem callsIn_value : (value e).callsIn vs = e.callsIn vs := List.append_nil _

@[simp] theorem callsIn_statement : (statement e).callsIn vs = e.callsIn vs := List.append_nil _

@[simp] theorem callsIn_bind : (bind pat e).callsIn vs = e.callsIn vs := List.append_nil _

@[simp] theorem callsIn_arm : (arm pat body).callsIn vs = body.callsIn (vs.under pat) := rfl

@[simp] theorem callsIn_armComma :
    (armComma pat body).callsIn vs = body.callsIn (vs.under pat) := rfl

@[simp] theorem callsIn_matchOn :
    (matchOn e ns).callsIn vs = e.callsIn vs ++ blockCallsIn vs ns := by
  change e.callsIn vs ++ (blockCallsIn vs ns ++ []) = _
  rw [List.append_nil]

@[simp] theorem callsIn_ifElse : (ifElse e ns ms).callsIn vs =
    e.callsIn vs ++ (blockCallsIn (vs.given e) ns ++ blockCallsIn vs ms) := by
  rw [← callsIn_block vs ms, ← List.append_nil ((block ms).callsIn vs)]
  rfl

@[simp] theorem callsIn_ifLet : (ifLet pat e ns).callsIn vs =
    e.callsIn vs ++ blockCallsIn (vs.under pat) ns := by
  rw [← List.append_nil (blockCallsIn (vs.under pat) ns)]
  rfl

end Node

namespace Variables

variable (vs : Variables) (e pat body : Node) (name : String)

@[simp] theorem after_bind : vs.after (.bind pat e) = vs.under pat := rfl

@[simp] theorem after_value : vs.after (.value e) = vs := rfl

@[simp] theorem after_statement : vs.after (.statement e) = vs := rfl

@[simp] theorem after_arm : vs.after (.arm pat body) = vs := rfl

@[simp] theorem after_armComma : vs.after (.armComma pat body) = vs := rfl

@[simp] theorem under_binding : vs.under (.binding name) = (name, .inner) :: vs := rfl

@[simp] theorem under_bindingMut : vs.under (.bindingMut name) = (name, .inner) :: vs := rfl

@[simp] theorem under_noParams : vs.under (.form .row (Node.commaSeparated [])) = vs := rfl

end Variables

end Source

namespace Emit

open Node

variable {runtime : Path} {service : String} {o : Operation}

/-! ## The calls of a wrapper -/

@[simp] theorem callsIn_runtimeNode (vs : Variables) (names : List String) :
    (runtimeNode runtime names).callsIn vs = [] := rfl

theorem nodesCallsIn_named {α : Type} (vs : Variables) (names : α → String) (as : List α) :
    nodesCallsIn vs (as.map fun a => named (names a)) = [] := by
  induction as with
  | nil => rfl
  | cons a as ih => simp [ih]

@[simp] theorem callsIn_serviceCall (vs : Variables) :
    (serviceCall o).callsIn vs = [(serviceCall o, vs)] := by
  simp [serviceCall, nodesCallsIn_named]

/-- What the body of a wrapper has bound where it runs the callback. -/
def callbackReach (vs : Variables) : Variables :=
  ("__continuation", .inner) :: ("__busy", .inner) :: vs

/-- What it has bound where it calls the service. -/
def serviceReach (vs : Variables) : Variables :=
  ("__service", .inner) :: ("__continuation", .inner) :: callbackReach vs

theorem deliver_quiet (vs : Variables) {target : String} (htarget : target ≠ "__service") :
    ((deliver runtime target).callsIn vs).filter (·.1.callsMethodOf "__service") = [] ∧
      ((deliver runtime target).callsIn vs).filter (·.1.callsFunction callbackName) = [] := by
  simp [deliver, htarget]

theorem dispatch_serviceIn (vs : Variables) :
    (blockCallsIn vs (dispatch runtime o)).filter (·.1.callsMethodOf "__service") =
      [(serviceCall o, vs)] := by
  have hservice : (serviceCall o).callsMethodOf "__service" = true := by simp [serviceCall]
  cases hshape : o.shape <;> simp [dispatch, hshape, deliver_quiet, hservice]

theorem dispatch_callbackIn (vs : Variables) :
    (blockCallsIn vs (dispatch runtime o)).filter (·.1.callsFunction callbackName) = [] := by
  have hservice : (serviceCall o).callsFunction callbackName = false := rfl
  have hok : ("Ok" == callbackName) = false := by decide
  cases hshape : o.shape <;> simp [dispatch, hshape, deliver_quiet, hservice, hok]

theorem settle_othersIn (vs : Variables) :
    ((settle runtime o).callsIn vs).filter (·.1.callsMethodOf "__service") = [] ∧
      ((settle runtime o).callsIn vs).filter (·.1.callsFunction callbackName) = [] := by
  cases hshape : o.shape <;> simp [settle, hshape, deliver_quiet]

theorem body_callbackIn (vs : Variables) :
    (blockCallsIn vs (body runtime service o)).filter (·.1.callsFunction callbackName) =
      [(runCallback, callbackReach vs)] := by
  have hcallback : (call (named callbackName) [borrowMut (named "__continuation")]).callsFunction
      callbackName = true := by simp
  simp [body, runCallback, callbackReach, dispatch_callbackIn, settle_othersIn, hcallback]

theorem body_serviceIn (vs : Variables) :
    (blockCallsIn vs (body runtime service o)).filter (·.1.callsMethodOf "__service") =
      [(serviceCall o, serviceReach vs)] := by
  simp [body, serviceReach, callbackReach, dispatch_serviceIn, settle_othersIn]

end Emit

/-! ## What the names mean -/

namespace Source.Variables

@[simp] theorem find_cons (name name' : String) (v : Variable) (vs : Variables) :
    find ((name, v) :: vs) name' = if unraw name = unraw name' then some v else find vs name' := by
  rw [find, List.find?_cons]
  split
  · rename_i heq
    rw [if_pos (by simpa using heq)]
    rfl
  · rename_i hne
    rw [if_neg (by simpa using hne)]
    rfl

/-- A variable is found behind another one exactly if its name is another identifier. -/
theorem find_behind {v w : Variable} (hne : v ≠ w) (name name' : String) (vs : Variables) :
    find ((name, v) :: vs) name' = some w ↔
      unraw name' ≠ unraw name ∧ vs.find name' = some w := by
  by_cases heq : unraw name = unraw name'
  · simp [heq, hne]
  · simp [heq, Ne.symm heq]

/-- A variable is found by its name if no other is the same identifier. -/
theorem find_of_mem {vs : Variables} (hnodup : (vs.map fun v => unraw v.1).Nodup) {name : String}
    {v : Variable} (hv : (name, v) ∈ vs) : vs.find name = some v := by
  induction vs with
  | nil => exact absurd hv List.not_mem_nil
  | cons w vs ih =>
    rw [List.map_cons, List.nodup_cons] at hnodup
    rw [find_cons]
    rcases List.mem_cons.1 hv with rfl | hv
    · exact if_pos rfl
    · rw [if_neg, ih hnodup.2 hv]
      intro heq
      exact hnodup.1 (heq ▸ List.mem_map_of_mem (f := fun v : String × Variable => unraw v.1) hv)

end Source.Variables

/-- The parameters of a signature besides `self`, the last of them nearest. -/
def Source.Signature.variables (s : Signature) : Variables :=
  (s.boundNames.zipIdx.map fun e => (e.1, .parameter e.2)).reverse

namespace Emit

open Node

variable {o : Operation}

/-- The names that come between those of the method's parameters and the call of the service. -/
def ownNames : List String := [callbackName, "__busy", "__continuation", "__service"]

/-- In the body `ns` of a wrapper for `o`, whose parameters are `vs`, the one call of the callback
runs the parameter that is last. The one call of the service hands on each parameter under its name,
and this means the parameter exactly if it is none of the wrapper's own names. -/
structure Forwards (o : Operation) (vs : Variables) (ns : List Node) : Prop where
  callback : ∃ reach,
    (blockCallsIn vs ns).filter (·.1.callsFunction callbackName) = [(runCallback, reach)] ∧
      reach.find callbackName = some (.parameter o.parameters.length)
  arguments : ∃ reach,
    (blockCallsIn vs ns).filter (·.1.callsMethodOf "__service") =
        [(invoke (named "__service") o.name (o.parameters.map fun p => named p.name), reach)] ∧
      ∀ place p, o.parameters[place]? = some p →
        (reach.find p.name = some (.parameter place) ↔ unraw p.name ∉ ownNames)

theorem signature_variables (runtime : Path) (o : Operation) :
    (signature runtime o).variables = (callbackName, .parameter o.parameters.length) ::
      (o.parameters.zipIdx.map fun e => (e.1.name, .parameter e.2)).reverse := by
  simp [Signature.variables, signature_boundNames, List.zipIdx_append, List.zipIdx_map]

theorem ownNames_plain : ∀ n ∈ ownNames, unraw n = n := by decide +kernel

theorem parameters_find (hdistinct : (o.parameters.map fun p => unraw p.name).Nodup) {place : Nat}
    {p : Parameter} (hp : o.parameters[place]? = some p) :
    Variables.find (o.parameters.zipIdx.map fun e => (e.1.name, .parameter e.2)).reverse p.name =
      some (.parameter place) := by
  apply Variables.find_of_mem
  · rw [List.map_reverse, List.nodup_reverse, List.map_map]
    rw [← List.zipIdx_map_fst 0 o.parameters, List.map_map] at hdistinct
    exact hdistinct
  · rw [List.mem_reverse, List.mem_map]
    exact ⟨(p, place), List.mk_mem_zipIdx_iff_getElem?.2 hp, rfl⟩

theorem body_forwards (runtime : Path) (service : String)
    (hdistinct : (o.parameters.map fun p => unraw p.name).Nodup) :
    Forwards o (signature runtime o).variables (body runtime service o) := by
  constructor
  case callback =>
    refine ⟨_, body_callbackIn _, ?_⟩
    have hinner : Variable.inner ≠ .parameter o.parameters.length := Variable.noConfusion
    rw [callbackReach, signature_variables, Variables.find_behind hinner,
      Variables.find_behind hinner, Variables.find_cons, if_pos rfl]
    exact ⟨by decide +kernel, by decide +kernel, rfl⟩
  case arguments =>
    refine ⟨_, body_serviceIn _, fun place p hp => ?_⟩
    have hinner : Variable.inner ≠ .parameter place := Variable.noConfusion
    have hlast : Variable.parameter o.parameters.length ≠ .parameter place := by
      have hlt := (List.getElem?_eq_some_iff.1 hp).1
      simpa using Nat.ne_of_gt hlt
    have hplain := ownNames_plain
    simp only [ownNames, List.forall_mem_cons] at hplain
    obtain ⟨hcallback, hbusy, hcontinuation, hservice, -⟩ := hplain
    -- the names of the wrapper from the nearest to the parameters' own
    rw [serviceReach, callbackReach, signature_variables, Variables.find_behind hinner,
      Variables.find_behind hinner, Variables.find_behind hinner, Variables.find_behind hinner,
      Variables.find_behind hlast, hservice, hcontinuation, hbusy, hcallback]
    simp only [parameters_find hdistinct hp, ownNames, List.mem_cons, List.not_mem_nil, or_false,
      not_or]
    tauto

/-- **What a wrapper's names mean.** For every service, with a runtime at any place: if the
parameters of a method are different identifiers, then in its wrapper the callback is the wrapper's
own, and an argument of the service call is the wrapper's parameter of its place exactly if it is
not called like something that the wrapper has bound by then. -/
theorem forwarded_names_iff (c : Config) (i : Interface)
    (hdistinct : ∀ o ∈ i.operations, (o.parameters.map fun p => unraw p.name).Nodup) :
    List.Forall₂ (fun o member => ∃ ns,
        member = .method ⟨[], .inherited, signature c.runtime o, some ns⟩ ∧
        Forwards o (signature c.runtime o).variables ns)
      i.operations (render c.runtime i (c.unitName i.simpleName)).implementation.members := by
  apply List.forall₂_map_right_iff.2
  apply List.forall₂_same.2
  intro o ho
  exact ⟨body c.runtime i.simpleName o, rfl, body_forwards c.runtime i.simpleName (hdistinct o ho)⟩

/-- A service whose parameters are called like what its wrappers bind after their use. -/
def lateSource : String :=
  "#[remote_service]\n#[async_trait]\ntrait Api: Send + Sync \x7b
    fn put(&self, __call: u8, r#__outcome: u16) -> svcwrap::Call<u8>;
    async fn later(&self, __result: u8) -> u8;
    fn get(&self, _: u8, __error: u16) -> u8;
\x7d\n"

theorem late_names_forwarded :
    ∃ u, Universe.ofSources [("api.rs", lateSource)] = .ok u ∧
      ∃ d ∈ scan u Config.default.marker, ∃ i,
        classifyInterface .default (.ofUniverse u) d = .ok i ∧
        i.operations.map (·.shape) = [.asyncCallWrapper, .deferredValue, .bareValue] ∧
        (∀ o ∈ i.operations, ∀ p ∈ o.parameters, unraw p.name ∉ ownNames) ∧
        List.Forall₂ (fun o member => ∃ ns,
            member = .method ⟨[], .inherited, signature Config.default.runtime o, some ns⟩ ∧
            Forwards o (signature Config.default.runtime o).variables ns)
          i.operations (render Config.default.runtime i
            (Config.default.unitName i.simpleName)).implementation.members := by
  have hread : describedAs "api.rs" lateSource.toList fun i =>
      decide (i.operations.map (·.shape) = [.asyncCallWrapper, .deferredValue, .bareValue] ∧
        (∀ o ∈ i.operations, (o.parameters.map fun p => unraw p.name).Nodup) ∧
        ∀ o ∈ i.operations, ∀ p ∈ o.parameters, unraw p.name ∉ ownNames) := by
    unfold lateSource
    rw [toList_of_ofList rfl]
    decide +kernel
  obtain ⟨u, hu, d, hd, i, hi, hnames⟩ := exists_of_describedAs hread
  obtain ⟨hshapes, hdistinct, hnames⟩ := of_decide_eq_true hnames
  exact ⟨u, hu, d, hd, i, hi, hshapes, hnames, forwarded_names_iff .default i hdistinct⟩

/-- A service whose parameter is called like the handle in its wrapper. -/
def capturedSource : String :=
  "#[remote_service]\ntrait Api: Send + Sync \x7b
    fn put(&self, __service: u8) -> u8;
\x7d\n"

/-- The wrapper hands the handle to the service in place of the argument. -/
theorem argument_captured :
    ∃ u, Universe.ofSources [("api.rs", capturedSource)] = .ok u ∧
      ∃ d ∈ scan u Config.default.marker, ∃ i,
        classifyInterface .default (.ofUniverse u) d = .ok i ∧
        ∃ o ∈ i.operations, (o.parameters.map fun p => unraw p.name).Nodup ∧
          ∃ reach, (blockCallsIn (signature Config.default.runtime o).variables
              (body Config.default.runtime i.simpleName o)).filter
                (·.1.callsMethodOf "__service") = [(serviceCall o, reach)] ∧
            ∃ p ∈ o.parameters, reach.find p.name = some .inner := by
  have hread : describedAs "api.rs" capturedSource.toList fun i => i.operations.any fun o =>
      decide ((o.parameters.map fun p => unraw p.name).Nodup ∧ ∃ p ∈ o.parameters,
        (serviceReach (signature Config.default.runtime o).variables).find p.name =
          some .inner) := by
    unfold capturedSource
    rw [toList_of_ofList rfl]
    decide +kernel
  obtain ⟨u, hu, d, hd, i, hi, hoperations⟩ := exists_of_describedAs hread
  obtain ⟨o, ho, hcaptured⟩ := List.any_eq_true.1 hoperations
  obtain ⟨hdistinct, hcaptured⟩ := of_decide_eq_true hcaptured
  exact ⟨u, hu, d, hd, i, hi, o, ho, hdistinct, _, body_serviceIn _, hcaptured⟩

end Emit

end WrapperGen
