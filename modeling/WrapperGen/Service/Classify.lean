import WrapperGen.Config.Settings
import WrapperGen.Service.Descriptor
import WrapperGen.Service.Resolve
import WrapperGen.Service.Scan
/-!
# Classifying services

Turns a marked trait into a description of its operations, or says why no wrapper can be written
for it. One unfit method makes the whole trait unfit.
-/

namespace WrapperGen

open Source

/-- The name that every wrapper gives to its callback. -/
def callbackName : String := "block"

/-! ## Which methods count -/

/-- Whether a method becomes an operation. -/
def isQualifying (c : Config) (m : Method) : Bool :=
  m.signature.receiver?.isSome &&
    match c.filter with
    | .required => m.body.isNone
    | .httpVerb => m.attrs.any fun a => a.path.segments.getLast?.any fun s => c.isHttpVerb s.name

namespace Source.Trait

def methods (t : Trait) : List Method :=
  t.members.filterMap fun
    | .method m => some m
    | _ => none

end Source.Trait

def qualifyingMethods (c : Config) (t : Trait) : List Method := t.methods.filter (isQualifying c)

/-! ## Results and parameters -/

/-- The shape of a return type and the type that a success delivers. -/
def classifyReturn (c : Config) (r : Resolver) (s : Scope) (isAsync : Bool) (ty : Ty) :
    ResultShape × Ty :=
  if isAsync then (.deferredValue, ty)
  else
    match r.resolve s ty with
    | .nominal path arguments =>
      let payload := match arguments with
        | [single] => single
        | _ => ty
      if c.callWrappers.contains path then (.asyncCallWrapper, payload)
      else if c.responseWrappers.contains path then (.syncResponseWrapper, payload)
      else (.bareValue, ty)
    | _ => (.bareValue, ty)

/-- Whether the type is a reference, or a tuple that holds one. -/
def borrows : Ty → Bool
  | .reference .. => true
  | .paren e => borrows e
  | .tuple es _ => anyBorrows es
  | _ => false
where
  anyBorrows : List Ty → Bool
    | [] => false
    | e :: es => borrows e || anyBorrows es

def isImplTrait : Ty → Bool
  | .implTrait .. => true
  | _ => false

/-- The name that a pattern binds, if it binds a whole argument. -/
def boundName? : Node → Option String
  | .form .bindingPat [_, _, .token (.ident name), subpattern] =>
    if subpattern.isAbsent then some name else none
  | _ => none

def quoted (name : String) : String := "`" ++ name ++ "`"

/-- One parameter of a method; `index` names it if its pattern does not. -/
def collectParameter (method : String) (isAsync : Bool) (index : Nat) (pattern : Node) (ty : Ty) :
    Except String Parameter := do
  let name := (boundName? pattern).getD ("arg" ++ toString index)
  if name == callbackName then
    throw (quoted method ++ " has a parameter named " ++ quoted callbackName ++
      ", which wrappers reserve for the callback")
  if isImplTrait ty then
    throw (quoted method ++ " takes an `impl Trait` parameter")
  if isAsync && borrows ty then
    throw ("async " ++ quoted method ++ " borrows parameter " ++ quoted name ++
      "; deferred calls need owned arguments")
  return ⟨name, ty⟩

def collectParameters (m : Method) : Except String (List Parameter) :=
  m.signature.typedInputs.zipIdx.mapM fun ((pattern, ty), index) =>
    collectParameter m.signature.name m.signature.asynchronous index pattern ty

/-- Describes a method, or says why it is unfit. -/
def classifyOperation (c : Config) (r : Resolver) (s : Scope) (m : Method) :
    Except String Operation := do
  let sig := m.signature
  if !sig.generics.params.isEmpty then
    throw (quoted sig.name ++ " declares generic parameters")
  if !sig.receiver?.any fun self => self.reference.isSome && !self.mutable then
    throw (quoted sig.name ++ " must take `&self`")
  match sig.output with
  | none => throw (quoted sig.name ++ " has no return type")
  | some ty =>
    if isImplTrait ty then throw (quoted sig.name ++ " returns `impl Trait`")
    let parameters ← collectParameters m
    let (shape, payload) := classifyReturn c r s sig.asynchronous ty
    return ⟨sig.name, parameters, shape, payload⟩

/-! ## Whether the trait can be shared as an object -/

/-- Whether a plain bound on the trait `name` is among the bounds. -/
def namesBound (name : String) (bounds : List Bound) : Bool :=
  bounds.any fun
    | .trait _ maybe _ p => !maybe && p.endsIn name
    | _ => false

/-- The bounds on `Self` in a `where` clause. -/
def selfBounds (g : Generics) : List Bound :=
  g.predicates.flatMap fun
    | .type _ (.path p) bounds _ => if p.isSingle "Self" then bounds else []
    | _ => []

def requiresBound (t : Trait) (name : String) : Bool :=
  namesBound name t.supertraits || namesBound name (selfBounds t.generics)

/-- Whether the method is only there for sized types and so no part of a trait object. -/
def sizedOnly (s : Signature) : Bool := namesBound "Sized" (selfBounds s.generics)

/-- What keeps a member out of a trait object. -/
def memberProblem? (boxesFutures : Bool) : Member → Option String
  | .const name =>
    some ("associated const " ++ quoted name ++ " makes the trait not dyn compatible")
  | .method m =>
    let sig := m.signature
    if sizedOnly sig then none
    else if sig.asynchronous && !boxesFutures then
      some ("async " ++ quoted sig.name ++
        " needs `#[async_trait]` on the trait to be dyn compatible")
    else if sig.receiver?.isNone then
      some (quoted sig.name ++
        " has no receiver; add `where Self: Sized` to keep the trait dyn compatible")
    else if sig.generics.hasTypeOrConst then
      some (quoted sig.name ++ " declares generic parameters")
    else if sig.output.any isImplTrait then some (quoted sig.name ++ " returns `impl Trait`")
    else none
  | _ => none

/-- What keeps the trait from being used through a shared handle. -/
def handleProblem? (t : Trait) : Option String :=
  match ["Send", "Sync"].filter fun name => !requiresBound t name with
  | [] => t.members.findSome? (memberProblem? (Attribute.anyNamed t.attrs "async_trait"))
  | missing =>
    some ("service traits must require " ++ quoted (" + ".intercalate missing) ++
      " to be shared through a service handle")

/-! ## Services -/

/-- Describes a marked trait. -/
def classifyInterface (c : Config) (r : Resolver) (d : Declared) : Except Failure Interface := do
  let abort {α : Type} (reason : String) : Except Failure α :=
    throw (.aborted d.qualifiedName reason)
  if !d.item.generics.params.isEmpty then
    abort "generic service traits cannot be reached through a service handle"
  match handleProblem? d.item with
  | some reason => abort reason
  | none =>
    let operations ← (qualifyingMethods c d.item).mapM fun m =>
      (classifyOperation c r ⟨d.packageName, []⟩ m).mapError (.aborted d.qualifiedName)
    return ⟨d.qualifiedName, d.packageName, d.simpleName, d.item.vis, d.origin, operations⟩

end WrapperGen
