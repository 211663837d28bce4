import WrapperGen.Service.Universe
/-!
# Resolving type names

What a type written in some module refers to: a declaration of the universe, something of another
crate, which is believed to be there, or nothing known. A name is looked up among the imports of
the module, its own declarations, the prelude, the primitive types and at last the glob imports.
-/

namespace WrapperGen

open Source

/-! ## Paths as lists of names -/

def joinNames (names : List String) : String := "::".intercalate names

/-- `base` followed by `names`. -/
def joinOnto (base : String) (names : List String) : String :=
  if names.isEmpty then base else joinNames (base :: names)

/-- Whether a path leads into the crate itself. -/
def isInternal (path : String) : Bool := path == "crate" || path.startsWith "crate::"

/-- The path without its last name, and that name. -/
def splitLast? (path : String) : Option (String × String) :=
  match Text.splitOn [':', ':'] 0 [] path.toList.reverse with
  | last :: first :: others =>
    let parent := [':', ':'].intercalate (first :: others)
    some (String.ofList parent.reverse, String.ofList last.reverse)
  | _ => none

/-! ## Imports -/

/-- A name that `use` brings in, or all names below `segments` if there is no new name. -/
structure FlatUse where
  segments : List String
  newName : Option String

mutual
/-- What a `use` tree below the path `base` imports. -/
def flattenUse (base : List String) : UseTree → List FlatUse
  | .path name tree => flattenUse (base ++ [name]) tree
  | .name name =>
    if name == "self" then
      match base.getLast? with
      | some last => [⟨base, some last⟩]
      | none => []
    else [⟨base ++ [name], some name⟩]
  | .rename name newName =>
    if newName == "_" then []
    else [⟨if name == "self" then base else base ++ [name], some newName⟩]
  | .glob => [⟨base, none⟩]
  | .group trees => flattenTrees base trees
def flattenTrees (base : List String) : List UseTree → List FlatUse
  | [] => []
  | t :: ts => flattenUse base t ++ flattenTrees base ts
end

/-! ## What a universe declares -/

/-- A name of a module and the path that it stands for. -/
structure Alias where
  module : String
  name : String
  target : String
deriving DecidableEq, Repr

structure Resolver where
  /-- The paths of all declared types and traits. -/
  declared : List String
  modules : List String
  /-- Named imports, the latest first. -/
  aliases : List Alias
  /-- Modules and the paths they import everything from, in order. -/
  globs : List (String × String)

namespace Resolver

mutual
/-- The declarations of an item in the module `module`. -/
def itemDeclared (module : String) : Item → List String
  | .trait t => [module ++ "::" ++ t.name]
  | .declaration _ name => [module ++ "::" ++ name]
  | .module name (some items) => itemsDeclared (module ++ "::" ++ name) items
  | _ => []
def itemsDeclared (module : String) : List Item → List String
  | [] => []
  | i :: is => itemDeclared module i ++ itemsDeclared module is
end

mutual
/-- The modules in an item, those of other files too. -/
def itemModules (module : String) : Item → List String
  | .module name content =>
    let nested := module ++ "::" ++ name
    nested :: match content with
      | some items => itemsModules nested items
      | none => []
  | _ => []
def itemsModules (module : String) : List Item → List String
  | [] => []
  | i :: is => itemModules module i ++ itemsModules module is
end

mutual
/-- The imports in an item, each with its module. -/
def itemUses (module : String) : Item → List (String × FlatUse)
  | .use tree => (flattenUse [] tree).map (module, ·)
  | .module name (some items) => itemsUses (module ++ "::" ++ name) items
  | _ => []
def itemsUses (module : String) : List Item → List (String × FlatUse)
  | [] => []
  | i :: is => itemUses module i ++ itemsUses module is
end

variable (r : Resolver)

def isDeclared (path : String) : Bool := r.declared.contains path

/-- What the name means by an import of the module. -/
def renamed? (module name : String) : Option String :=
  (r.aliases.find? fun a => a.module == module && a.name == name).map (·.target)

/-- The module that `super`s at the front of `names` lead to, and the names after them. The crate is
above itself. -/
def climb : List String → List String → List String × List String
  | base, "super" :: names => climb (if base.length > 1 then base.dropLast else base) names
  | base, names => (base, names)

/-- The full path of `names` as they are seen in a module. -/
def absolute (module : String) (names : List String) : String :=
  match names with
  | [] => module
  | "crate" :: _ => joinNames names
  | "self" :: rest => joinOnto module rest
  | "super" :: _ =>
    let (base, rest) := climb (Text.splitPath module) names
    joinOnto (joinNames base) rest
  | first :: rest =>
    match r.renamed? module first with
    | some target => joinOnto target rest
    | none =>
      let child := module ++ "::" ++ first
      if r.modules.contains child then joinOnto child rest else joinNames names

/-- Adds one import; earlier ones can stand at the front of its path. -/
def addUse (module : String) (use : FlatUse) : Resolver :=
  let target := r.absolute module use.segments
  match use.newName with
  | some name => { r with aliases := ⟨module, name, target⟩ :: r.aliases }
  | none => { r with globs := r.globs ++ [(module, target)] }

/-- Reads a universe: first what is declared, then the imports in order. -/
def ofUniverse (u : Universe) : Resolver :=
  let start : Resolver :=
    { declared := u.files.flatMap fun f => itemsDeclared f.module f.content.items
      modules := u.files.flatMap fun f => f.module :: itemsModules f.module f.content.items
      aliases := []
      globs := [] }
  let uses := u.files.flatMap fun f => itemsUses f.module f.content.items
  uses.foldl (fun r (module, use) => r.addUse module use) start

end Resolver

/-! ## Resolving -/

/-- Where a type is written: its module and the type parameters it may name. -/
structure Scope where
  module : String
  generics : List String

namespace Scope

def withGenerics (s : Scope) (g : Generics) : Scope :=
  { s with generics := s.generics ++ g.typeNames }

end Scope

/-- What a type refers to. -/
inductive Resolution
  | nominal (path : String) (arguments : List Ty)
  | generic (name : String)
  /-- A type that is not just a path. -/
  | structural
  | unresolved (name : String)

namespace Resolution

def arguments : Resolution → List Ty
  | nominal _ arguments => arguments
  | _ => []

def isResolved : Resolution → Bool
  | unresolved _ => false
  | _ => true

end Resolution

/-- Names that are known everywhere. -/
def prelude : List (String × String) :=
  [("Option", "std::option::Option"), ("Result", "std::result::Result"), ("Vec", "std::vec::Vec"),
    ("String", "std::string::String"), ("Box", "std::boxed::Box")]

def primitives : List String :=
  ["bool", "char", "str", "u8", "u16", "u32", "u64", "u128", "usize", "i8", "i16", "i32", "i64",
    "i128", "isize", "f32", "f64"]

namespace Resolver

variable (r : Resolver)

/-- A path in the crate is declared, or imported where it seems to be declared. -/
def resolveInternal (path : String) (arguments : List Ty) : Resolution :=
  if r.isDeclared path then .nominal path arguments
  else
    match (splitLast? path).bind fun (parent, name) => r.renamed? parent name with
    | some target =>
      if !isInternal target || r.isDeclared target then .nominal target arguments
      else .unresolved path
    | none => .unresolved path

def resolvePath (path : String) (arguments : List Ty) : Resolution :=
  if isInternal path then r.resolveInternal path arguments else .nominal path arguments

/-- Looks for `name` below the glob imports; another crate is believed to have it. -/
def resolveGlobs (name : String) (arguments : List Ty) : List String → Resolution
  | [] => .unresolved name
  | glob :: globs =>
    let candidate := glob ++ "::" ++ name
    if !isInternal glob || r.isDeclared candidate then .nominal candidate arguments
    else resolveGlobs name arguments globs

def moduleGlobs (module : String) : List String :=
  r.globs.filterMap fun (m, target) => if m == module then some target else none

def resolveName (s : Scope) (name : String) (arguments : List Ty) : Resolution :=
  if name == "Self" || s.generics.contains name then .generic name
  else
    match r.renamed? s.module name with
    | some target => r.resolvePath target arguments
    | none =>
      let ownPath := s.module ++ "::" ++ name
      if r.isDeclared ownPath then .nominal ownPath arguments
      else
        match prelude.lookup name with
        | some path => .nominal path arguments
        | none =>
          if primitives.contains name then .nominal name arguments
          else r.resolveGlobs name arguments (r.moduleGlobs s.module)

/-- What a path that is used as a type refers to. -/
def resolveTypePath (s : Scope) (p : Path) : Resolution :=
  let arguments := (p.segments.getLast?.map fun l => Ty.argumentTypes l.args).getD []
  if p.leading then .nominal (joinNames p.names) arguments
  else
    match p.names with
    | [name] => r.resolveName s name arguments
    | names =>
      if names.head?.any fun first => first == "Self" || s.generics.contains first then
        .generic (joinNames names)
      else r.resolvePath (r.absolute s.module names) arguments

def resolve (s : Scope) : Ty → Resolution
  | .paren e => resolve s e
  | .path p => r.resolveTypePath s p
  | _ => .structural

/-- The name that a type path fails to resolve, if it does. -/
def unresolvedPath? (s : Scope) (p : Path) : Option String :=
  match r.resolveTypePath s p with
  | .unresolved name => some name
  | _ => none

/-- Adds what is not there yet, at the end. -/
def addNew (known more : List String) : List String :=
  more.foldl (fun acc n => if acc.contains n then acc else acc ++ [n]) known

/-- The names of the type paths in `t` that resolve to nothing, each once. -/
def unresolvedNames (s : Scope) (t : Ty) : List String :=
  addNew [] (t.paths.filterMap (r.unresolvedPath? s))

end Resolver

end WrapperGen
