import WrapperGen.Proofs.Types.FullPaths
import WrapperGen.Proofs.Types.Tables
/-!
# Imported names

A `use` tree binds names to paths. A path is made full by its first name and what the module knows
of this name, so further names at its end stay at the end (`absolute_append`), and a path means the
same where it is imported as where it is written out (`renamed?_import`). So a name that is imported
once stands for its path, also in front of further names (`import_transparent`). The words `crate`,
`self` and `super` mean modules at the front of a path only, and there they come before what is
imported (`module_words_opaque`).
-/

namespace WrapperGen

open Source

/-! ## Leaves of `use` trees -/

namespace Source.UseTree

/-- The tree, which stands below the path `base`, binds the name `a` to the path `p`. -/
inductive Binds : List String → UseTree → List String → String → Prop
  | name {base : List String} {n : String} (notSelf : n ≠ "self") :
      Binds base (.name n) (base ++ [n]) n
  /-- `self` stands for the path that it is below. -/
  | self {base : List String} {n : String} : Binds (base ++ [n]) (.name "self") (base ++ [n]) n
  | rename {base : List String} {n a : String} (notSelf : n ≠ "self") (named : a ≠ "_") :
      Binds base (.rename n a) (base ++ [n]) a
  | renameSelf {base : List String} {a : String} (named : a ≠ "_") :
      Binds base (.rename "self" a) base a
  | path {base p : List String} {n a : String} {tree : UseTree}
      (below : Binds (base ++ [n]) tree p a) : Binds base (.path n tree) p a
  | group {base p : List String} {a : String} {trees : List UseTree} {tree : UseTree}
      (mem : tree ∈ trees) (binds : Binds base tree p a) : Binds base (.group trees) p a

theorem mem_flattenTrees {base : List String} {use : FlatUse} {trees : List UseTree} :
    use ∈ flattenTrees base trees ↔ ∃ tree ∈ trees, use ∈ flattenUse base tree := by
  induction trees with
  | nil => simp [flattenTrees]
  | cons tree trees ih => simp [flattenTrees, ih]

theorem Binds.mem_flattenUse {base p : List String} {a : String} {tree : UseTree}
    (h : Binds base tree p a) : ⟨p, some a⟩ ∈ flattenUse base tree := by
  induction h with
  | name notSelf => simp [flattenUse, notSelf]
  | self => simp [flattenUse]
  | rename notSelf named => simp [flattenUse, notSelf, named]
  | renameSelf named => simp [flattenUse, named]
  | path _ ih => rwa [flattenUse]
  | group mem _ ih =>
    rw [flattenUse, mem_flattenTrees]
    exact ⟨_, mem, ih⟩

mutual
theorem binds_of_mem {p : List String} {a : String} :
    ∀ (base : List String) (tree : UseTree), ⟨p, some a⟩ ∈ flattenUse base tree →
      Binds base tree p a
  | base, .path n tree, h => by
    rw [flattenUse] at h
    exact .path (binds_of_mem _ tree h)
  | base, .name n, h => by
    rw [flattenUse] at h
    split at h
    · rename_i hself
      cases beq_iff_eq.1 hself
      split at h
      · rename_i last hlast
        obtain ⟨front, rfl⟩ := List.getLast?_eq_some_iff.1 hlast
        cases List.mem_singleton.1 h
        exact .self
      · exact absurd h List.not_mem_nil
    · rename_i hself
      cases List.mem_singleton.1 h
      exact .name (by simpa using hself)
  | base, .rename n new, h => by
    rw [flattenUse] at h
    split at h
    · exact absurd h List.not_mem_nil
    · rename_i hnamed
      have hnamed : new ≠ "_" := by simpa using hnamed
      cases List.mem_singleton.1 h
      by_cases hself : n = "self"
      · subst hself
        exact .renameSelf hnamed
      · rw [if_neg (by simpa using hself)]
        exact .rename hself hnamed
  | base, .glob, h => by simp [flattenUse] at h
  | base, .group trees, h => by
    rw [flattenUse] at h
    obtain ⟨tree, hmem, hbinds⟩ := trees_bind_of_mem base trees h
    exact .group hmem hbinds
theorem trees_bind_of_mem {p : List String} {a : String} :
    ∀ (base : List String) (trees : List UseTree), ⟨p, some a⟩ ∈ flattenTrees base trees →
      ∃ tree ∈ trees, Binds base tree p a
  | base, [], h => absurd h List.not_mem_nil
  | base, tree :: trees, h => by
    rw [flattenTrees] at h
    rcases List.mem_append.1 h with h | h
    · exact ⟨tree, .head _, binds_of_mem base tree h⟩
    · obtain ⟨tree', hmem, hbinds⟩ := trees_bind_of_mem base trees h
      exact ⟨tree', .tail _ hmem, hbinds⟩
end

/-- The named imports of a tree are what it binds. -/
theorem mem_flattenUse_iff {base p : List String} {a : String} {tree : UseTree} :
    ⟨p, some a⟩ ∈ flattenUse base tree ↔ Binds base tree p a :=
  ⟨binds_of_mem base tree, Binds.mem_flattenUse⟩

end Source.UseTree

namespace Resolver

mutual
/-- The `use` trees in an item, each with its module. -/
def itemUseTrees (module : String) : Item → List (String × UseTree)
  | .use tree => [(module, tree)]
  | .module name (some items) => itemsUseTrees (module ++ "::" ++ name) items
  | _ => []
def itemsUseTrees (module : String) : List Item → List (String × UseTree)
  | [] => []
  | i :: is => itemUseTrees module i ++ itemsUseTrees module is
end

/-- The imports of a tree, each with its module. -/
def treeUses (tree : String × UseTree) : List (String × FlatUse) :=
  (flattenUse [] tree.2).map (tree.1, ·)

mutual
theorem itemUses_eq {module : String} :
    ∀ i : Item, itemUses module i = (itemUseTrees module i).flatMap treeUses
  | .use tree => by simp [itemUses, itemUseTrees, treeUses]
  | .module name (some items) => by
    rw [itemUses, itemUseTrees]
    exact itemsUses_eq items
  | .module name none | .trait _ | .impl _ | .declaration _ name | .other => by
    simp [itemUses, itemUseTrees]
theorem itemsUses_eq {module : String} :
    ∀ is : List Item, itemsUses module is = (itemsUseTrees module is).flatMap treeUses
  | [] => rfl
  | i :: is => by
    rw [itemsUses, itemsUseTrees, List.flatMap_append, itemUses_eq i, itemsUses_eq is]
end

end Resolver

namespace Universe

/-- The `use` trees of all files, each with its module. -/
def useTrees (u : Universe) : List (String × UseTree) :=
  u.files.flatMap fun f => Resolver.itemsUseTrees f.module f.content.items

theorem mem_useTrees {u : Universe} {f : SourceFile} {module : String} {tree : UseTree}
    (hf : f ∈ u.files) (hmodule : f.module = module) (htree : .use tree ∈ f.content.items) :
    (module, tree) ∈ u.useTrees := by
  refine List.mem_flatMap.2 ⟨f, hf, ?_⟩
  rw [hmodule]
  generalize f.content.items = items at htree
  induction items with
  | nil => exact absurd htree List.not_mem_nil
  | cons i is ih =>
    rw [Resolver.itemsUseTrees]
    rcases List.mem_cons.1 htree with rfl | htree
    · exact List.mem_append_left _ (.head _)
    · exact List.mem_append_right _ (ih htree)

theorem uses_eq (u : Universe) : u.uses = u.useTrees.flatMap Resolver.treeUses := by
  simp only [uses, useTrees, List.flatMap_assoc, Resolver.itemsUses_eq]

/-- The imports of a module. -/
def usesIn (u : Universe) (module : String) : List FlatUse :=
  (u.uses.filter (·.1 = module)).map (·.2)

/-- The names that the imports of a module bind. -/
def boundNames (u : Universe) (module : String) : List String :=
  (u.usesIn module).filterMap FlatUse.newName

theorem mem_usesIn {u : Universe} {module : String} {use : FlatUse} :
    use ∈ u.usesIn module ↔ (module, use) ∈ u.uses := by
  simp [usesIn]

theorem mem_usesIn_of_binds {u : Universe} {module a : String} {tree : UseTree} {p : List String}
    (htree : (module, tree) ∈ u.useTrees) (hbinds : UseTree.Binds [] tree p a) :
    ⟨p, some a⟩ ∈ u.usesIn module := by
  rw [mem_usesIn, uses_eq]
  exact List.mem_flatMap.2 ⟨_, htree, List.mem_map_of_mem (UseTree.mem_flattenUse_iff.2 hbinds)⟩

end Universe

/-! ## Reading the imports of a module -/

namespace Resolver

/-- Reads imports of one module in order. -/
def readIn (r : Resolver) (module : String) (uses : List FlatUse) : Resolver :=
  r.addUses (uses.map (module, ·))

variable {r : Resolver} {module name : String} {use : FlatUse} {uses before after : List FlatUse}

theorem readIn_cons : r.readIn module (use :: uses) = (r.addUse module use).readIn module uses :=
  rfl

theorem readIn_append :
    r.readIn module (before ++ after) = (r.readIn module before).readIn module after := by
  simp [readIn, addUses]

theorem readIn_modules : (r.readIn module uses).modules = r.modules := addUses_modules r _

theorem renamed?_addUse : (r.addUse module use).renamed? module name =
    if use.newName = some name then some (r.absolute module use.segments)
    else r.renamed? module name := by
  unfold addUse renamed?
  cases use.newName with
  | none => simp
  | some new => by_cases hnew : new = name <;> simp [hnew]

/-- A name that is not bound keeps its meaning. -/
theorem renamed?_readIn_other (h : name ∉ uses.filterMap FlatUse.newName) :
    (r.readIn module uses).renamed? module name = r.renamed? module name := by
  induction uses generalizing r with
  | nil => rfl
  | cons use uses ih =>
    have hhead : use.newName ≠ some name := fun heq => h (List.mem_filterMap.2 ⟨use, .head _, heq⟩)
    have htail : name ∉ uses.filterMap FlatUse.newName := fun hmem =>
      h (((List.sublist_cons_self use uses).filterMap _).subset hmem)
    rw [readIn_cons, ih htail, renamed?_addUse, if_neg hhead]

/-- A name has the path of the last import that binds it. -/
theorem renamed?_readIn_last (hname : use.newName = some name)
    (hafter : name ∉ after.filterMap FlatUse.newName) :
    (r.readIn module (before ++ use :: after)).renamed? module name =
      some ((r.readIn module before).absolute module use.segments) := by
  rw [readIn_append, readIn_cons, renamed?_readIn_other hafter, renamed?_addUse, if_pos hname]

/-- What the imports of other modules leave to a module. -/
theorem ofUniverse_readIn (u : Universe) (module : String) :
    Alike (fun _ => True) module (ofUniverse u)
      ((withoutUses u).readIn module (u.usesIn module)) := by
  have huses : (u.usesIn module).map (module, ·) = u.uses.filter (·.1 = module) := by
    rw [Universe.usesIn, List.map_map]
    refine (List.map_congr_left fun use huse => ?_).trans (List.map_id _)
    exact Prod.ext (of_decide_eq_true (List.mem_filter.1 huse).2).symm rfl
  rw [ofUniverse_eq, readIn, huses]
  exact alike_addUses (Alike.refl _) fun _ _ _ _ _ => trivial

end Resolver

/-- Where a name is bound only once, no import before or after binds it. -/
theorem FlatUse.split_once {uses : List FlatUse} {use : FlatUse} {name : String}
    (hmem : use ∈ uses) (hname : use.newName = some name)
    (honce : (uses.filterMap FlatUse.newName).count name = 1) :
    ∃ before after, uses = before ++ use :: after ∧ name ∉ before.filterMap FlatUse.newName ∧
      name ∉ after.filterMap FlatUse.newName := by
  obtain ⟨before, after, rfl⟩ := List.append_of_mem hmem
  rw [List.filterMap_append, List.filterMap_cons_some hname, List.count_append,
    List.count_cons_self] at honce
  exact ⟨before, after, rfl, List.not_mem_of_count_eq_zero (by omega),
    List.not_mem_of_count_eq_zero (by omega)⟩

/-! ## Transparency -/

namespace Source.Path

/-- The path of these names, the last of which is applied to `args`. -/
def ofNamesTo (names : List String) (args : Args) : Path :=
  ⟨false, names.dropLast.map .plain ++ names.getLast?.toList.map (⟨·, args⟩)⟩

theorem ofNamesTo_names (names : List String) (args : Args) :
    (ofNamesTo names args).names = names := by
  have hplain : Segment.name ∘ Segment.plain = id := rfl
  cases hlast : names.getLast? with
  | none =>
    rw [List.getLast?_eq_none_iff] at hlast
    simp [ofNamesTo, Path.names, hlast]
  | some last =>
    obtain ⟨before, rfl⟩ := List.getLast?_eq_some_iff.1 hlast
    simp [ofNamesTo, Path.names, hplain]

theorem ofNamesTo_arguments {names : List String} (hnames : names ≠ []) (args : Args) :
    (ofNamesTo names args).segments.getLast?.map (Ty.argumentTypes ·.args) =
      some (Ty.argumentTypes args) := by
  simp [ofNamesTo, List.getLast?_eq_some_getLast hnames]

end Source.Path

/-- The names that stand for a type parameter, or for the type of the trait itself. -/
def Scope.parameters (s : Scope) : List String := "Self" :: s.generics

/-- In the scope `s` the name `a` is imported as the path `p`, which has two names or more, once and
without help of other imports of the module: `a` and the first name of `p` mean nothing else. -/
structure Universe.Imports (u : Universe) (s : Scope) (p : List String) (a : String) : Prop where
  bound : ∃ tree, (s.module, tree) ∈ u.useTrees ∧ UseTree.Binds [] tree p a
  nested : 2 ≤ p.length
  once : (u.boundNames s.module).count a = 1
  direct : ∀ first ∈ p.head?, first ∉ u.boundNames s.module
  noParameter : a ∉ s.parameters
  pathNoParameter : ∀ first ∈ p.head?, first ∉ s.parameters

namespace Resolver

variable {u : Universe} {s : Scope} {p : List String} {a : String}

/-- An imported name means its path. -/
theorem renamed?_import (h : u.Imports s p a) :
    (ofUniverse u).renamed? s.module a = some ((ofUniverse u).absolute s.module p) := by
  obtain ⟨tree, htree, hbinds⟩ := h.bound
  obtain ⟨before, after, huses, hbefore, hafter⟩ :=
    FlatUse.split_once (Universe.mem_usesIn_of_binds htree hbinds) rfl h.once
  have halike := ofUniverse_readIn u s.module
  rw [halike.renamed, huses, renamed?_readIn_last rfl hafter]
  refine congrArg some (absolute_congr fun first hfirst _ => front_congr ?_ ?_)
  · -- no import binds the first name, so it means the same whatever has been read
    have hdirect := h.direct first hfirst
    have hbefore : first ∉ before.filterMap FlatUse.newName := fun hmem => by
      rw [Universe.boundNames, huses, List.filterMap_append] at hdirect
      exact hdirect (List.mem_append_left _ hmem)
    rw [halike.renamed, renamed?_readIn_other hbefore, renamed?_readIn_other hdirect]
  · rw [readIn_modules, ofUniverse_eq, addUses_modules]

/-- A path of two names or more is made full and looked up. -/
theorem resolve_names (r : Resolver) {first second : String} {names : List String}
    (hfirst : first ∉ s.parameters) (args : Args) :
    r.resolve s (.path (.ofNamesTo (first :: second :: names) args)) =
      r.resolvePath (r.absolute s.module (first :: second :: names)) (Ty.argumentTypes args) := by
  rw [resolve, resolveTypePath, Path.ofNamesTo_names,
    Path.ofNamesTo_arguments (List.cons_ne_nil _ _)]
  simp only [Scope.parameters, List.mem_cons, not_or] at hfirst
  simp [Path.ofNamesTo, hfirst]

theorem resolve_name (r : Resolver) (name : String) (args : Args) :
    r.resolve s (.path (.ofNamesTo [name] args)) =
      r.resolveName s name (Ty.argumentTypes args) := by
  rw [resolve, resolveTypePath, Path.ofNamesTo_names,
    Path.ofNamesTo_arguments (List.cons_ne_nil _ _)]
  simp [Path.ofNamesTo]

theorem resolveName_parameter (r : Resolver) {name : String} (hname : name ∈ s.parameters)
    (arguments : List Ty) : r.resolveName s name arguments = .generic name := by
  rw [Scope.parameters, List.mem_cons] at hname
  simp [resolveName, hname]

/-- An imported name is looked up at its path. -/
theorem resolveName_renamed {r : Resolver} {name target : String} (hname : name ∉ s.parameters)
    (htarget : r.renamed? s.module name = some target) (arguments : List Ty) :
    r.resolveName s name arguments = r.resolvePath target arguments := by
  simp only [Scope.parameters, List.mem_cons, not_or] at hname
  simp [resolveName, hname, htarget]

/-- A path that is found has the arguments that it is written with. -/
theorem resolvePath_nominal {r : Resolver} {path found : String} {arguments arguments' : List Ty}
    (h : r.resolvePath path arguments = .nominal found arguments') : arguments' = arguments := by
  unfold resolvePath resolveInternal at h
  repeat' split at h
  all_goals cases h
  all_goals rfl

end Resolver

/-- What a result's type resolves to decides its shape. -/
theorem classifyReturn_shape (c : Config) (r : Resolver) (s : Scope) (ty : Ty) :
    (classifyReturn c r s false ty).1 =
      match r.resolve s ty with
      | .nominal path _ => c.shapeOf path
      | _ => .bareValue := by
  unfold classifyReturn
  simp only [Bool.false_eq_true, if_false, List.contains_iff_mem, Config.shapeOf]
  cases r.resolve s ty with
  | nominal path arguments =>
    dsimp only
    repeat' split
    all_goals rfl
  | _ => rfl

/-- A wrapper delivers the one type that it is applied to. -/
theorem classifyReturn_single {c : Config} {r : Resolver} {s : Scope} {ty t : Ty} {path : String}
    (hresolve : r.resolve s ty = .nominal path [t])
    (hshape : (classifyReturn c r s false ty).1 ≠ .bareValue) :
    (classifyReturn c r s false ty).2 = t := by
  unfold classifyReturn at hshape ⊢
  rw [hresolve] at hshape ⊢
  simp only [Bool.false_eq_true, if_false] at hshape ⊢
  split
  · rfl
  · split
    · rfl
    · simp_all

/-- **Imported names stand for their paths.** Let a `use` tree of the module, of any nesting, bind
`a` to the path `p` of two names or more, where no other import of the module binds `a` and none the
first name of `p`. Then `a` followed by further names and applied to any arguments resolves as `p`
followed by these names does. So a result has the same shape either way, and if it is a wrapper of
one type, it delivers this type. The words `crate`, `self` and `super` are no names: `a` is none of
them where names follow it, and no `super` follows a path that is nothing but `super`s. -/
theorem import_transparent {u : Universe} {s : Scope} {p : List String} {a : String}
    (h : u.Imports s p a) (rest : List String) (ha : rest ≠ [] → a ∉ Resolver.moduleWords)
    (hrest : rest.head? = some "super" → ∃ name ∈ p, name ≠ "super") (args : Args) :
    let r := Resolver.ofUniverse u
    let short := Ty.path (.ofNamesTo (a :: rest) args)
    let full := Ty.path (.ofNamesTo (p ++ rest) args)
    r.resolve s short = r.resolve s full ∧
      ∀ c, (classifyReturn c r s false short).1 = (classifyReturn c r s false full).1 ∧
        ∀ t, Ty.argumentTypes args = [t] → (classifyReturn c r s false full).1 ≠ .bareValue →
          (classifyReturn c r s false short).2 = t ∧ (classifyReturn c r s false full).2 = t := by
  intro r short full
  have hname := Resolver.renamed?_import h
  obtain ⟨first, second, names, rfl⟩ : ∃ first second names, p = first :: second :: names := by
    match p, h.nested with
    | first :: second :: names, _ => exact ⟨first, second, names, rfl⟩
  -- both are looked up at the full path of `p` followed by `rest`
  have hfull : r.resolve s full = r.resolvePath
      (joinOnto (r.absolute s.module (first :: second :: names)) rest) (Ty.argumentTypes args) := by
    rw [← Resolver.absolute_append r s.module (List.cons_ne_nil _ _) hrest]
    exact Resolver.resolve_names r (h.pathNoParameter first rfl) args
  have hshort : r.resolve s short = r.resolvePath
      (joinOnto (r.absolute s.module (first :: second :: names)) rest) (Ty.argumentTypes args) := by
    cases rest with
    | nil =>
      exact (r.resolve_name a args).trans (Resolver.resolveName_renamed h.noParameter hname _)
    | cons next rest =>
      rw [← Resolver.front_of_renamed hname,
        ← Resolver.absolute_cons r s.module (ha (List.cons_ne_nil _ _))]
      exact Resolver.resolve_names r h.noParameter args
  have hsame := hshort.trans hfull.symm
  refine ⟨hsame, fun c => ?_⟩
  have hshape : (classifyReturn c r s false short).1 = (classifyReturn c r s false full).1 := by
    rw [classifyReturn_shape, classifyReturn_shape, hsame]
  refine ⟨hshape, fun t ht hwrapper => ?_⟩
  obtain ⟨path, hpath⟩ : ∃ path, r.resolve s full = .nominal path [t] := by
    rw [classifyReturn_shape] at hwrapper
    split at hwrapper
    · rename_i path arguments hpath
      rw [hpath, ← ht, Resolver.resolvePath_nominal (hfull.symm.trans hpath)]
      exact ⟨path, rfl⟩
    · exact absurd rfl hwrapper
  exact ⟨classifyReturn_single (hsame.trans hpath) (hshape ▸ hwrapper),
    classifyReturn_single hpath hwrapper⟩

/-- The file of these items. -/
def SourceFile.ofItems (path : String) (items : List Item) : SourceFile :=
  ⟨⟨path⟩, modulePath ⟨path⟩, ⟨items⟩⟩

/-- The tree of `use crate::{models::{self as m, Reply}};`. -/
def modelsTree : UseTree :=
  .path "crate" (.group [.path "models" (.group [.rename "self" "m", .name "Reply"])])

/-- A wrapper that is imported itself and reached through its module. -/
def importedWrapper : Universe :=
  ⟨[.ofItems "models.rs" [.declaration .struct "Reply"], .ofItems "api.rs" [.use modelsTree]], []⟩

theorem module_imported : importedWrapper.Imports ⟨"crate::api", []⟩ ["crate", "models"] "m" where
  bound := by
    refine ⟨modelsTree, Universe.mem_useTrees (.tail _ (.head _)) ?_ (.head _), ?_⟩
    · show modulePath ⟨"api.rs"⟩ = "crate::api"
      decide +kernel
    · exact .path (.group (.head _) (.path (.group (.head _) (.renameSelf (by decide)))))
  nested := by decide
  once := by decide +kernel
  direct := by decide +kernel
  noParameter := by decide
  pathNoParameter := by decide

theorem wrapper_reached :
    let c : Config := { Config.default with callWrappers := ["crate::models::Reply"] }
    let r := Resolver.ofUniverse importedWrapper
    let s : Scope := ⟨"crate::api", []⟩
    let args : Args := .angle false [.type (.named "u8")] false
    classifyReturn c r s false (.path (.ofNamesTo ["m", "Reply"] args)) =
      (.asyncCallWrapper, .named "u8") := by
  intro c r s args
  obtain ⟨-, hclassify⟩ :=
    import_transparent module_imported ["Reply"] (fun _ => by decide) (by decide) args
  obtain ⟨hshape, hpayload⟩ := hclassify c
  have hfull : (classifyReturn c r s false
      (.path (.ofNamesTo (["crate", "models"] ++ ["Reply"]) args))).1 = .asyncCallWrapper := by
    decide +kernel
  have hwrapper : (classifyReturn c r s false
      (.path (.ofNamesTo (["crate", "models"] ++ ["Reply"]) args))).1 ≠ .bareValue := by
    rw [hfull]
    decide
  exact Prod.ext (hshape.trans hfull) (hpayload _ rfl hwrapper).1

/-- Imports of a module two levels up, and of the module above under the word for it. -/
def wordImports : Universe :=
  ⟨[.ofItems "lib.rs" [.declaration .struct "Item"],
    .ofItems "a/b/c.rs" [.use (.path "super" (.rename "super" "top"))],
    .ofItems "api.rs" [.use (.path "self" (.path "super" (.group [.name "self"])))]], []⟩

/-- Where words for modules are taken for names, an import is not its path. -/
theorem module_words_opaque :
    let r := Resolver.ofUniverse wordImports
    let type (names : List String) := Ty.path (.ofNamesTo names .none)
    (wordImports.Imports ⟨"crate::a::b::c", []⟩ ["super", "super"] "top" ∧
      r.resolve ⟨"crate::a::b::c", []⟩ (type (["top"] ++ ["super", "Item"])) ≠
        r.resolve ⟨"crate::a::b::c", []⟩ (type (["super", "super"] ++ ["super", "Item"]))) ∧
    (wordImports.Imports ⟨"crate::api", []⟩ ["self", "super"] "super" ∧
      r.resolve ⟨"crate::api", []⟩ (type (["super"] ++ ["Item"])) ≠
        r.resolve ⟨"crate::api", []⟩ (type (["self", "super"] ++ ["Item"]))) := by
  intro r type
  -- one side resolves, the other does not
  have hne : ∀ {s : Scope} {names names' : List String},
      (r.resolve s (type names)).isResolved ≠ (r.resolve s (type names')).isResolved →
        r.resolve s (type names) ≠ r.resolve s (type names') :=
    fun h heq => h (congrArg Resolution.isResolved heq)
  have hdeep : modulePath ⟨"a/b/c.rs"⟩ = "crate::a::b::c" := by decide +kernel
  have hapi : modulePath ⟨"api.rs"⟩ = "crate::api" := by decide +kernel
  refine ⟨⟨⟨⟨_, Universe.mem_useTrees (.tail _ (.head _)) hdeep (.head _), ?_⟩, by decide,
    by decide +kernel, by decide +kernel, by decide, by decide⟩, hne (by decide +kernel)⟩,
    ⟨⟨⟨_, Universe.mem_useTrees (.tail _ (.tail _ (.head _))) hapi (.head _), ?_⟩, by decide,
    by decide +kernel, by decide +kernel, by decide, by decide⟩, hne (by decide +kernel)⟩⟩
  · exact .path (.rename (by decide) (by decide))
  · exact .path (.path (.group (.head _) (@UseTree.Binds.self ["self"] "super")))

end WrapperGen
