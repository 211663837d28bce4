import WrapperGen.Service.Universe
/-!
# Finding services

A service is a trait that carries the marker, at any depth of modules.
-/

namespace WrapperGen

open Files Source

/-- A marked trait and where it was found. -/
structure Declared where
  qualifiedName : String
  packageName : String
  simpleName : String
  origin : FilePath
  line : Nat
  item : Trait

mutual
/-- The marked traits of an item. -/
def scanItem (marker : String) (origin : FilePath) (module : String) : Item → List Declared
  | .trait t =>
    if Attribute.anyNamed t.attrs marker then
      [⟨module ++ "::" ++ t.name, module, t.name, origin, t.line, t⟩]
    else []
  | .module name (some items) => scanItems marker origin (module ++ "::" ++ name) items
  | _ => []
def scanItems (marker : String) (origin : FilePath) (module : String) : List Item → List Declared
  | [] => []
  | i :: is => scanItem marker origin module i ++ scanItems marker origin module is
end

/-- The marked traits of all files, in order. -/
def scan (u : Universe) (marker : String) : List Declared :=
  u.files.flatMap fun f => scanItems marker f.path f.module f.content.items

end WrapperGen
