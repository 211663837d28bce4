import WrapperGen.Source.Render
/-!
# Items

The items of a source file. Traits, implementations, modules and imports are kept whole; of other
declarations only the name matters, and everything else is `other`.
-/

namespace WrapperGen.Source

open Tree

inductive Visibility
  | inherited
  | pub
  | restricted (hasIn : Bool) (path : Path)

/-- An attribute: its path and what follows the path. -/
structure Attribute where
  path : Path
  body : List Node

namespace Attribute

/-- Whether some attribute's path ends in `name`. -/
def anyNamed (attrs : List Attribute) (name : String) : Bool :=
  attrs.any fun a => a.path.endsIn name

/-- An attribute as a phrase of its own. -/
def node (a : Attribute) : Node :=
  .form .attr [.op "#", .group .bracket (.path a.path :: a.body)]

/-- An attribute inside what it belongs to, as a phrase of its own. -/
def innerNode (a : Attribute) : Node :=
  .form .attr [.op "#", .op "!", .group .bracket (.path a.path :: a.body)]

end Attribute

inductive WherePredicate
  | lifetime (name : String) (bounds : List String) (trailing : Bool)
  | type (binder : Option Binder) (ty : Ty) (bounds : List Bound) (trailing : Bool)

structure Generics where
  /-- Whether there are angle brackets, which may be empty. -/
  angle : Bool
  params : List GenericParam
  trailing : Bool
  /-- The `where` clause, if there is one. -/
  clause : Option (List WherePredicate × Bool)

namespace Generics

def none : Generics := ⟨false, [], false, .none⟩

def typeNames (g : Generics) : List String :=
  g.params.filterMap fun
    | .type _ n _ _ => some n
    | _ => .none

def hasTypeOrConst (g : Generics) : Bool :=
  g.params.any fun
    | .lifetime .. => false
    | _ => true

def predicates (g : Generics) : List WherePredicate := (g.clause.map (·.1)).getD []

end Generics

/-- The `self` parameter. `reference` holds an optional lifetime when it is taken by reference. -/
structure Receiver where
  reference : Option (Option String)
  mutable : Bool
  ty : Option Ty

inductive FnInput
  | receiver (attrs : List Attribute) (receiver : Receiver)
  | typed (attrs : List Attribute) (pattern : Node) (ty : Ty)

structure Signature where
  constant : Bool
  asynchronous : Bool
  unchecked : Bool
  abi : Option (Option String)
  name : String
  generics : Generics
  inputs : List FnInput
  trailing : Bool
  variadic : List Node
  output : Option Ty

namespace Signature

/-- The `self` parameter, which only the first can be. -/
def receiver? (s : Signature) : Option Receiver :=
  match s.inputs with
  | .receiver _ r :: _ => some r
  | _ => none

/-- The patterns and types of the parameters other than `self`. -/
def typedInputs (s : Signature) : List (Node × Ty) :=
  s.inputs.filterMap fun
    | .typed _ p t => some (p, t)
    | .receiver .. => none

end Signature

/-- A function of a trait or an implementation, with its statements if it has a body. -/
structure Method where
  attrs : List Attribute
  vis : Visibility
  signature : Signature
  body : Option (List Node)

inductive Member
  | method (method : Method)
  | const (name : String)
  | type (name : String) (generics : Generics)
  /-- What reads as a member but stands in a form that only its tokens can be kept of: with a
  visibility or `default` where there can be none, or a constant with parameters. -/
  | raw (member : Member)
  /-- An invocation, which may stand for any members. -/
  | invocation

structure Trait where
  attrs : List Attribute
  vis : Visibility
  unchecked : Bool
  auto : Bool
  name : String
  /-- The line of the name. -/
  line : Nat
  generics : Generics
  supertraits : List Bound
  trailing : Bool
  members : List Member

structure Implementation where
  attrs : List Attribute
  generics : Generics
  trait : Option Path
  self : Ty
  members : List Member

inductive UseTree
  | path (name : String) (tree : UseTree)
  | name (name : String)
  | rename (name newName : String)
  | glob
  | group (trees : List UseTree)

/-- Kinds of declaration that only matter by their name. -/
inductive DeclKind
  | struct
  | enum
  | union
  | typeAlias
  | traitAlias
deriving DecidableEq, Repr

inductive Item
  | trait (trait : Trait)
  | impl (impl : Implementation)
  | module (name : String) (content : Option (List Item))
  | use (tree : UseTree)
  | declaration (kind : DeclKind) (name : String)
  | other

instance : Inhabited Item := ⟨.other⟩

/-- The items of a file. -/
structure File where
  items : List Item

/-! ## Items as token trees -/

def Visibility.trees : Visibility → List Tree
  | .inherited => []
  | .pub => word "pub"
  | .restricted hasIn p => word "pub" ++ within .paren (when hasIn (word "in") ++ p.trees)

def Visibility.render (v : Visibility) : String := compact (showTrees v.trees)

def Attribute.trees (a : Attribute) : List Tree :=
  op "#" ++ within .bracket (a.path.trees ++ nodesTrees a.body)

def attributesTrees (as : List Attribute) : List Tree := as.flatMap Attribute.trees

def WherePredicate.trees : WherePredicate → List Tree
  | .lifetime n bs tr => tick n ++ op ":" ++ separated "+" tr (bs.map tick)
  | .type b t bs tr => binderTrees b ++ t.trees ++ op ":" ++ separated "+" tr (boundTrees bs)

namespace Generics

def paramTrees (g : Generics) : List Tree :=
  when g.angle (op "<" ++ separated "," g.trailing (genericParamTrees g.params) ++ op ">")

def clauseTrees (g : Generics) : List Tree :=
  match g.clause with
  | .none => []
  | some (ps, tr) => word "where" ++ separated "," tr (ps.map WherePredicate.trees)

end Generics

def Receiver.trees (r : Receiver) : List Tree :=
  (match r.reference with
    | none => []
    | some l => op "&" ++ (l.map tick).getD []) ++
  when r.mutable (word "mut") ++ word "self" ++
  (match r.ty with
    | none => []
    | some t => op ":" ++ t.trees)

def FnInput.trees : FnInput → List Tree
  | .receiver as r => attributesTrees as ++ r.trees
  | .typed as p t => attributesTrees as ++ p.trees ++ op ":" ++ t.trees

def Signature.trees (s : Signature) : List Tree :=
  when s.constant (word "const") ++ when s.asynchronous (word "async") ++
    when s.unchecked (word "unsafe") ++
    (match s.abi with
      | none => []
      | some none => word "extern"
      | some (some name) => word "extern" ++ lit name) ++
    word "fn" ++ word s.name ++ s.generics.paramTrees ++
    within .paren (separated "," s.trailing (s.inputs.map FnInput.trees) ++
      nodesTrees s.variadic) ++
    outputTrees s.output ++ s.generics.clauseTrees

def Method.trees (m : Method) : List Tree :=
  attributesTrees m.attrs ++ m.vis.trees ++ m.signature.trees ++
    match m.body with
    | none => op ";"
    | some ns => within .brace (nodesTrees ns)

/-- The trees of a member; only methods are written out. -/
def Member.trees : Member → List Tree
  | .method m => m.trees
  | _ => []

def Trait.trees (t : Trait) : List Tree :=
  attributesTrees t.attrs ++ t.vis.trees ++ when t.unchecked (word "unsafe") ++
    when t.auto (word "auto") ++ word "trait" ++ word t.name ++ t.generics.paramTrees ++
    when (!t.supertraits.isEmpty) (op ":" ++ separated "+" t.trailing (boundTrees t.supertraits)) ++
    t.generics.clauseTrees ++ within .brace (t.members.flatMap Member.trees)

def Implementation.trees (i : Implementation) : List Tree :=
  attributesTrees i.attrs ++ word "impl" ++ i.generics.paramTrees ++
    (match i.trait with
      | none => []
      | some p => p.trees ++ word "for") ++
    i.self.trees ++ i.generics.clauseTrees ++ within .brace (i.members.flatMap Member.trees)

end WrapperGen.Source
