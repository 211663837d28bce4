import WrapperGen.Config.Settings
import WrapperGen.Failure
import WrapperGen.Layout.Items
import WrapperGen.Service.Classify
import WrapperGen.Service.Descriptor
import WrapperGen.Source.Build
/-!
# Emitting wrappers

The unit of a service is a trait with one method for each operation and its implementation for the
service handle. A method opens the busy bracket, lets the caller register callbacks and then
dispatches the call inside a boundary that turns a panic into a failure.
-/

namespace WrapperGen

open Source Files

/-- Why nothing was generated: a failure to report, or a panic with its text. -/
inductive Stop
  | failure (failure : Failure)
  | panic (text : String)
deriving DecidableEq, Repr

/-- The source of one service's wrappers. -/
structure GeneratedUnit where
  qualifiedName : String
  packageName : String
  unitName : String
  origin : FilePath
  source : String
deriving DecidableEq, Repr

/-- The trait of a unit and its implementation, before they are written out. -/
structure RenderedUnit where
  extension : Trait
  implementation : Implementation

namespace Emit

/-! ## Paths of the runtime -/

/-- A type of the runtime, applied to `args`. -/
def runtimeType (runtime : Path) (name : String) (args : List Ty) : Path :=
  { runtime with
    segments := runtime.segments ++
      [⟨name, if args.isEmpty then .none else .angle false (args.map .type) false⟩] }

def runtimeNode (runtime : Path) (names : List String) : Node :=
  .path (names.foldl Path.child runtime)

/-! ## Signatures -/

def selfInput : FnInput := .receiver [] ⟨some none, false, none⟩

def parameterInput (p : Parameter) : FnInput := .typed [] (.binding p.name) p.ty

/-- The callback: something that registers handlers on a continuation for `payload`. -/
def blockInput (runtime : Path) (payload : Ty) : FnInput :=
  let continuation := Ty.path (runtimeType runtime "Continuation" [payload])
  let bound := Bound.trait false false none
    ⟨false, [⟨"FnOnce", .paren [.reference none true continuation] false none⟩]⟩
  .typed [] (.binding callbackName) (.implTrait [bound] false)

def signature (runtime : Path) (o : Operation) : Signature where
  constant := false
  asynchronous := false
  unchecked := false
  abi := none
  name := o.name
  generics := .none
  inputs := selfInput :: o.parameters.map parameterInput ++ [blockInput runtime o.payload]
  trailing := false
  variadic := []
  output := none

/-! ## Bodies -/

open Node

/-- Hands a response to `target`: its body if it succeeded, else a failure. -/
def deliver (runtime : Path) (target : String) : Node :=
  ifElse (invoke (named "__response") "is_successful" [])
    [value (matchOn (invoke (named "__response") "into_body" [])
      [arm (holding "Some" "__value")
          (block [statement (invoke (named target) "succeed" [named "__value"])]),
        arm (binding "None")
          (block [statement (invoke (named target) "fail"
            [runtimeNode runtime ["CallError", "EmptyBody"]])])])]
    [statement (invoke (named target) "fail"
      [call (runtimeNode runtime ["CallError", "http"])
        [invoke (named "__response") "code" [], invoke (named "__response") "message" []]])]

/-- The call of the service. -/
def serviceCall (o : Operation) : Node :=
  invoke (named "__service") o.name (o.parameters.map fun p => named p.name)

/-- What happens inside the boundary once the service is at hand. -/
def dispatch (runtime : Path) (o : Operation) : List Node :=
  match o.shape with
  | .asyncCallWrapper =>
    [bind (binding "__call") (serviceCall o),
      bind (binding "__completion") (invoke (named "__continuation") "clone" []),
      statement (invoke (named "__call") "enqueue"
        [closure true [binding "__result"]
          (matchOn (named "__result")
            [armComma (holding "Ok" "__response") (deliver runtime "__completion"),
              arm (holding "Err" "__cause")
                (block [statement (invoke (named "__completion") "fail" [named "__cause"])])])]),
      value (call (named "Ok") [unit])]
  | .deferredValue =>
    [value (invoke (named "self") "spawn_deferred"
      [asyncMove [value (await (serviceCall o))], invoke (named "__continuation") "clone" []])]
  | .syncResponseWrapper | .bareValue => [value (call (named "Ok") [serviceCall o])]

/-- What happens with the result of the boundary. -/
def settle (runtime : Path) (o : Operation) : Node :=
  match o.shape with
  | .asyncCallWrapper | .deferredValue =>
    value (ifLet (holding "Err" "__error") (named "__outcome")
      [statement (invoke (named "__continuation") "fail_dispatch" [named "__error"])])
  | .syncResponseWrapper =>
    value (matchOn (named "__outcome")
      [armComma (holding "Ok" "__response") (deliver runtime "__continuation"),
        arm (holding "Err" "__error")
          (block [statement (invoke (named "__continuation") "fail" [named "__error"])])])
  | .bareValue => statement (invoke (named "__continuation") "complete" [named "__outcome"])

/-- The body of a wrapper. The callback and `settle` are outside the boundary, so that their panics
reach the caller. -/
def body (runtime : Path) (service : String) (o : Operation) : List Node :=
  [bind (binding "__busy") (invoke (named "self") "busy" []),
    bind (bindingMut "__continuation") (call (runtimeNode runtime ["Continuation", "new"]) []),
    statement (call (named callbackName) [borrowMut (named "__continuation")]),
    bind (binding "__continuation") (invoke (named "__continuation") "shared" []),
    bind (binding "__outcome")
      (call (runtimeNode runtime ["runtime", "attempt"])
        [closure false []
          (block (
            bind (binding "__service")
              (orReturn (invokeAt (named "self") "service_handle"
                (.traitObject true [.trait false false none (.single service)] false) [])) ::
            dispatch runtime o))]),
    settle runtime o]

/-! ## Units -/

def docOf (simpleName : String) : String :=
  " Callback-style wrappers for [`" ++ simpleName ++ "`] on the service DSL."

def docAttribute (text : String) : Attribute :=
  ⟨.single "doc", [.op "=", .token (.literal (Text.quote text))]⟩

def method (signature : Signature) (body : Option (List Node)) : Member :=
  .method ⟨[], .inherited, signature, body⟩

/-- The trait and the implementation for a service, under the given name. -/
def render (runtime : Path) (i : Interface) (unitName : String) : RenderedUnit where
  extension :=
    { attrs := [docAttribute (docOf i.simpleName)]
      vis := i.visibility
      unchecked := false
      auto := false
      name := unitName
      line := 0
      generics := .none
      supertraits := []
      trailing := false
      members := i.operations.map fun o => method (signature runtime o) none }
  implementation :=
    { attrs := []
      generics := .none
      trait := some (.single unitName)
      self := .path (runtimeType runtime "ServiceDsl" [])
      members := i.operations.map fun o =>
        method (signature runtime o) (some (body runtime i.simpleName o)) }

end Emit

namespace RenderedUnit

def trees (u : RenderedUnit) : List Tree := u.extension.trees ++ u.implementation.trees

def pieces (u : RenderedUnit) : List Layout.Piece :=
  Layout.traitPieces u.extension ++ Layout.implementationPieces u.implementation

end RenderedUnit

namespace Emit

/-- The panic for a text that is no name, if it is none. -/
def badName? (text : String) : Option String :=
  match text.toList with
  | [] => some "Ident is not allowed to be empty; use Option<Ident>"
  | c :: cs =>
    if text.toList.all Char.isDigit then
      some "Ident cannot be a number; use Literal instead"
    else if Text.isIdentStart c && cs.all Text.isIdentContinue then none
    else some (Text.quote text ++ " is not a valid Ident")

/-- The comment in front of a unit. -/
def header (i : Interface) : String :=
  "// @generated by svcwrap from " ++ i.origin.text ++ " (" ++ i.qualifiedName ++ "). Do not edit."

/-- Writes the unit of a service. The unit must read as a file, else nothing is written. -/
def emit (c : Config) (i : Interface) : Except Stop GeneratedUnit := do
  let unitName := c.unitName i.simpleName
  match badName? unitName <|> badName? i.simpleName with
  | some text => throw (.panic text)
  | none => pure ()
  let unit := render c.runtime i unitName
  match readTrees File.reader unit.trees with
  | .error e =>
    throw (.failure (.aborted i.qualifiedName
      ("rendered unit does not parse: " ++ e.fault.message)))
  | .ok _ => pure ()
  match Layout.anyUnwritable? unit.pieces with
  | some what => throw (.panic ("not implemented: " ++ what))
  | none =>
    return ⟨i.qualifiedName, i.packageName, unitName, i.origin,
      header i ++ "\n\n" ++ Layout.layout unit.pieces⟩

end Emit

end WrapperGen
