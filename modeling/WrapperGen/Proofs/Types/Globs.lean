import WrapperGen.Proofs.Types.Imports
/-!
# Glob imports

A glob import of a module of the crate offers what the module declares, and nothing that it imports
from elsewhere; the import of a single name is looked up among both. So when a module imports all of
another one, a name that could be imported from there is found exactly if it is declared there
(`glob_sees_iff`), and a name that is handed on is not (`handed_on_unseen`).
-/

namespace WrapperGen

open Source

/-! ## Replacing an import -/

/-- The items differ in one `use` of the module: `old` is written in the first ones where `new` is
in the others. -/
inductive UseReplaced (module : String) (old new : UseTree) :
    String → List Item → List Item → Prop
  | here {is : List Item} : UseReplaced module old new module (.use old :: is) (.use new :: is)
  | after {base : String} {i : Item} {is is' : List Item}
      (rest : UseReplaced module old new base is is') :
      UseReplaced module old new base (i :: is) (i :: is')
  | inside {base name : String} {is is' rest : List Item}
      (body : UseReplaced module old new (base ++ "::" ++ name) is is') :
      UseReplaced module old new base (.module name (some is) :: rest)
        (.module name (some is') :: rest)

namespace UseReplaced

variable {module base : String} {old new : UseTree} {is is' : List Item}

theorem declared (h : UseReplaced module old new base is is') :
    Resolver.itemsDeclared base is' = Resolver.itemsDeclared base is := by
  induction h with
  | here => simp [Resolver.itemsDeclared, Resolver.itemDeclared]
  | after _ ih => simp [Resolver.itemsDeclared, ih]
  | inside _ ih => simp [Resolver.itemsDeclared, Resolver.itemDeclared, ih]

theorem modules (h : UseReplaced module old new base is is') :
    Resolver.itemsModules base is' = Resolver.itemsModules base is := by
  induction h with
  | here => simp [Resolver.itemsModules, Resolver.itemModules]
  | after _ ih => simp [Resolver.itemsModules, ih]
  | inside _ ih => simp [Resolver.itemsModules, Resolver.itemModules, ih]

/-- Of the imports only those of the replaced `use` differ. -/
theorem uses (h : UseReplaced module old new base is is') :
    ∃ before after,
      Resolver.itemsUses base is = before ++ Resolver.treeUses (module, old) ++ after ∧
      Resolver.itemsUses base is' = before ++ Resolver.treeUses (module, new) ++ after := by
  induction h with
  | @here is =>
    exact ⟨[], Resolver.itemsUses module is, by simp [Resolver.itemsUses, Resolver.itemUses,
      Resolver.treeUses], by simp [Resolver.itemsUses, Resolver.itemUses, Resolver.treeUses]⟩
  | @after base i _ _ _ ih =>
    obtain ⟨before, after, hold, hnew⟩ := ih
    exact ⟨Resolver.itemUses base i ++ before, after, by simp [Resolver.itemsUses, hold],
      by simp [Resolver.itemsUses, hnew]⟩
  | @inside base _ _ _ rest _ ih =>
    obtain ⟨before, after, hold, hnew⟩ := ih
    exact ⟨before, after ++ Resolver.itemsUses base rest,
      by simp [Resolver.itemsUses, Resolver.itemUses, hold],
      by simp [Resolver.itemsUses, Resolver.itemUses, hnew]⟩

end UseReplaced

namespace Universe

/-- The universes differ in one `use` of the module. -/
def UseReplaced (u u' : Universe) (module : String) (old new : UseTree) : Prop :=
  ∃ before after f items, u.files = before ++ f :: after ∧
    u'.files = before ++ { f with content := ⟨items⟩ } :: after ∧
    WrapperGen.UseReplaced module old new f.module f.content.items items

namespace UseReplaced

variable {u u' : Universe} {module : String} {old new : UseTree}

theorem declared (h : u.UseReplaced u' module old new) : u'.declared = u.declared := by
  obtain ⟨before, after, f, items, hu, hu', hitems⟩ := h
  simp [Universe.declared, hu, hu', hitems.declared]

theorem modules (h : u.UseReplaced u' module old new) : u'.modules = u.modules := by
  obtain ⟨before, after, f, items, hu, hu', hitems⟩ := h
  simp [Universe.modules, hu, hu', hitems.modules]

theorem uses (h : u.UseReplaced u' module old new) :
    ∃ before after, u.uses = before ++ Resolver.treeUses (module, old) ++ after ∧
      u'.uses = before ++ Resolver.treeUses (module, new) ++ after := by
  obtain ⟨before, after, f, items, hu, hu', hitems⟩ := h
  obtain ⟨first, last, hold, hnew⟩ := hitems.uses
  exact ⟨(Universe.mk before []).uses ++ first, last ++ (Universe.mk after []).uses,
    by simp [Universe.uses, hu, hold], by simp [Universe.uses, hu', hnew]⟩

theorem usesIn (h : u.UseReplaced u' module old new) :
    ∃ before after, u.usesIn module = before ++ flattenUse [] old ++ after ∧
      u'.usesIn module = before ++ flattenUse [] new ++ after := by
  obtain ⟨before, after, hold, hnew⟩ := h.uses
  let own (uses : List (String × FlatUse)) := (uses.filter (·.1 = module)).map (·.2)
  have htree : ∀ tree : UseTree, own (Resolver.treeUses (module, tree)) = flattenUse [] tree :=
    fun tree => by simp [own, Resolver.treeUses, List.filter_map, Function.comp_def]
  exact ⟨own before, own after, by simp [Universe.usesIn, hold, ← htree, own],
    by simp [Universe.usesIn, hnew, ← htree, own]⟩

end UseReplaced

/-- In `u` the module imports all below `path` and nothing else; in `u'` it imports `name` from there
instead. The path leads to a module of the crate, and `name` has no other meaning in the module. -/
structure ImportsAll (u u' : Universe) (module : String) (path : List String) (name : String) :
    Prop where
  replaced : ∃ old new, u.UseReplaced u' module old new ∧ flattenUse [] old = [⟨path, none⟩] ∧
    flattenUse [] new = [⟨path ++ [name], some name⟩]
  alone : u.usesIn module = [⟨path, none⟩]
  nonempty : path ≠ []
  noWord : name ∉ Resolver.moduleWords
  internal : isInternal ((Resolver.ofUniverse u).absolute module path) = true
  undeclared : (Resolver.ofUniverse u).isDeclared (module ++ "::" ++ name) = false
  noPrelude : prelude.lookup name = none
  noPrimitive : name ∉ primitives

end Universe

/-! ## What a glob sees -/

namespace Resolver

variable {u u' : Universe} {module name : String} {path : List String}

/-- A module that only imports from below one path has the path as its only glob. -/
theorem tables_of_glob (halone : u.usesIn module = [⟨path, none⟩]) :
    (∀ name, (ofUniverse u).renamed? module name = none) ∧
      (ofUniverse u).moduleGlobs module = [(ofUniverse u).absolute module path] := by
  have halike := ofUniverse_readIn u module
  rw [halone] at halike
  have hnone : ∀ name, (ofUniverse u).renamed? module name = none := fun name => by
    rw [halike.renamed, renamed?_readIn_other List.not_mem_nil]
    rfl
  refine ⟨hnone, ?_⟩
  have habsolute : (ofUniverse u).absolute module path = (withoutUses u).absolute module path :=
    absolute_congr fun first _ _ =>
      front_congr (by rw [hnone]; rfl) (by rw [ofUniverse_modules]; rfl)
  rw [halike.globs, habsolute]
  simp [readIn, addUses, addUse, moduleGlobs, withoutUses]

/-- A module that only imports one name has the name for this path. -/
theorem tables_of_name (halone : u.usesIn module = [⟨path, some name⟩]) :
    (ofUniverse u).renamed? module name = some ((withoutUses u).absolute module path) := by
  rw [(ofUniverse_readIn u module).renamed, halone]
  exact @renamed?_readIn_last (withoutUses u) module name ⟨path, some name⟩ [] [] rfl
    List.not_mem_nil

/-- A name of a scope has no other meaning, so it is looked up below the glob imports. -/
structure SeeksGlobs (r : Resolver) (s : Scope) (name : String) : Prop where
  noParameter : name ∉ s.parameters
  notRenamed : r.renamed? s.module name = none
  undeclared : r.isDeclared (s.module ++ "::" ++ name) = false
  noPrelude : prelude.lookup name = none
  noPrimitive : name ∉ primitives

theorem SeeksGlobs.resolveName {r : Resolver} {s : Scope} (h : r.SeeksGlobs s name)
    (arguments : List Ty) :
    r.resolveName s name arguments = r.resolveGlobs name arguments (r.moduleGlobs s.module) := by
  have hparameter := h.noParameter
  simp only [Scope.parameters, List.mem_cons, not_or] at hparameter
  simp [Resolver.resolveName, hparameter, h.notRenamed, h.undeclared, h.noPrelude, h.noPrimitive]

end Resolver

/-- **What a glob import sees.** Let a module import all below a path of the crate and nothing else,
and let `name` have no other meaning there. Suppose that `name` resolves if it is imported from this
path instead, whatever it then refers to and is applied to. Then it resolves through the glob to the
same if it is declared below the path, and to nothing otherwise. -/
theorem glob_sees_iff {u u' : Universe} {s : Scope} {path : List String} {name : String}
    (h : u.ImportsAll u' s.module path name) {args : Args} {found : String} {arguments : List Ty}
    (hfound : (Resolver.ofUniverse u').resolve s (.path (.ofNamesTo [name] args)) =
      .nominal found arguments) :
    let r := Resolver.ofUniverse u
    r.resolve s (.path (.ofNamesTo [name] args)) =
      if r.isDeclared (r.absolute s.module path ++ "::" ++ name) then .nominal found arguments
      else .unresolved name := by
  intro r
  obtain ⟨old, new, hreplaced, hold, hnew⟩ := h.replaced
  have halone' : u'.usesIn s.module = [⟨path ++ [name], some name⟩] := by
    obtain ⟨before, after, huses, huses'⟩ := hreplaced.usesIn
    rw [h.alone, hold] at huses
    rw [hnew] at huses'
    have hlength := congrArg List.length huses
    simp only [List.length_append, List.length_singleton] at hlength
    rw [huses', List.eq_nil_of_length_eq_zero (by omega : before.length = 0),
      List.eq_nil_of_length_eq_zero (by omega : after.length = 0)]
    rfl
  obtain ⟨hnone, hglobs⟩ := Resolver.tables_of_glob h.alone
  -- the imported name stands for what lies below the path of the glob
  have htarget : (Resolver.ofUniverse u').renamed? s.module name =
      some (r.absolute s.module path ++ "::" ++ name) := by
    have hpath : (Resolver.withoutUses u').absolute s.module path = r.absolute s.module path :=
      Resolver.absolute_congr fun first _ _ => Resolver.front_congr (by rw [hnone]; rfl) (by
        rw [Resolver.ofUniverse_modules, ← hreplaced.modules]
        rfl)
    have hfirst : [name].head? = some "super" → ∃ n ∈ path, n ≠ "super" := fun hhead => by
      cases hhead
      exact absurd (.tail _ (.tail _ (.head _))) h.noWord
    rw [Resolver.tables_of_name halone',
      Resolver.absolute_append _ _ h.nonempty hfirst, hpath, joinOnto_singleton]
  have hparameter : name ∉ s.parameters := fun hmem => by
    rw [Resolver.resolve_name, Resolver.resolveName_parameter _ hmem] at hfound
    cases hfound
  rw [Resolver.resolve_name, Resolver.resolveName_renamed hparameter htarget, Resolver.resolvePath,
    if_pos (isInternal_below h.internal name), Resolver.resolveInternal,
    Resolver.ofUniverse_isDeclared, hreplaced.declared, ← Resolver.ofUniverse_isDeclared] at hfound
  have hseeks : r.SeeksGlobs s name :=
    ⟨hparameter, hnone name, h.undeclared, h.noPrelude, h.noPrimitive⟩
  rw [Resolver.resolve_name, hseeks.resolveName, hglobs, Resolver.resolveGlobs,
    Resolver.resolveGlobs]
  simp only [h.internal, Bool.not_true, Bool.false_or]
  split
  · rename_i hdeclared
    rwa [if_pos hdeclared] at hfound
  · rfl

/-! ## Names that are handed on -/

deriving instance DecidableEq for FlatUse

/-- The path that a type refers to. -/
def Resolution.path? : Resolution → Option String
  | nominal path _ => some path
  | _ => none

theorem Resolution.eq_nominal {x : Resolution} {path : String} (hpath : x.path? = some path)
    (harguments : x.arguments = []) : x = .nominal path [] := by
  cases x with
  | nominal p arguments =>
    cases hpath
    cases harguments
    rfl
  | _ => cases hpath

/-- A file that imports something, after other files. -/
def importer (others : List SourceFile) (tree : UseTree) : Universe :=
  ⟨others ++ [.ofItems "api.rs" [.use tree]], []⟩

theorem importer_replaced (others : List SourceFile) (old new : UseTree) :
    (importer others old).UseReplaced (importer others new) "crate::api" old new := by
  have hmodule : (SourceFile.ofItems "api.rs" [.use old]).module = "crate::api" := by
    show modulePath ⟨"api.rs"⟩ = "crate::api"
    decide +kernel
  exact ⟨others, [], .ofItems "api.rs" [.use old], [.use new], rfl, rfl, hmodule ▸ .here⟩

def itemFile : SourceFile := .ofItems "models.rs" [.declaration .struct "Item"]

theorem declared_name_seen :
    let all := importer [itemFile] (.path "crate" (.path "models" .glob))
    let one := importer [itemFile] (.path "crate" (.path "models" (.name "Item")))
    all.ImportsAll one "crate::api" ["crate", "models"] "Item" ∧
      (Resolver.ofUniverse all).resolve ⟨"crate::api", []⟩ (.path (.ofNamesTo ["Item"] .none)) =
        .nominal "crate::models::Item" [] := by
  intro all one
  have himports : all.ImportsAll one "crate::api" ["crate", "models"] "Item" := {
    replaced := ⟨_, _, importer_replaced _ _ _, by decide, by decide⟩
    alone := by decide +kernel
    nonempty := by decide
    noWord := by decide
    internal := by decide +kernel
    undeclared := by decide +kernel
    noPrelude := by decide
    noPrimitive := by decide }
  have hfound : (Resolver.ofUniverse one).resolve ⟨"crate::api", []⟩
      (.path (.ofNamesTo ["Item"] .none)) = .nominal "crate::models::Item" [] :=
    Resolution.eq_nominal (by decide +kernel) (by decide +kernel)
  have hdeclared : (Resolver.ofUniverse all).isDeclared
      ((Resolver.ofUniverse all).absolute "crate::api" ["crate", "models"] ++ "::" ++ "Item") =
        true := by decide +kernel
  exact ⟨himports, (glob_sees_iff (s := ⟨"crate::api", []⟩) himports hfound).trans
    (if_pos hdeclared)⟩

/-- A module that hands on what another one declares. -/
def handingOn : List SourceFile :=
  [itemFile,
    .ofItems "prelude.rs" [.use (.path "crate" (.path "models" (.name "Item")))]]

/-- What a module hands on can be imported from it by name, but not by a glob. -/
theorem handed_on_unseen :
    let all := importer handingOn (.path "crate" (.path "prelude" .glob))
    let one := importer handingOn (.path "crate" (.path "prelude" (.name "Item")))
    let type := Ty.path (.ofNamesTo ["Item"] .none)
    all.ImportsAll one "crate::api" ["crate", "prelude"] "Item" ∧
      (Resolver.ofUniverse one).resolve ⟨"crate::api", []⟩ type =
        .nominal "crate::models::Item" [] ∧
      (Resolver.ofUniverse all).resolve ⟨"crate::api", []⟩ type ≠
        .nominal "crate::models::Item" [] := by
  intro all one type
  have himports : all.ImportsAll one "crate::api" ["crate", "prelude"] "Item" := {
    replaced := ⟨_, _, importer_replaced _ _ _, by decide, by decide⟩
    alone := by decide +kernel
    nonempty := by decide
    noWord := by decide
    internal := by decide +kernel
    undeclared := by decide +kernel
    noPrelude := by decide
    noPrimitive := by decide }
  refine ⟨himports, Resolution.eq_nominal (by decide +kernel) (by decide +kernel), fun hseen => ?_⟩
  have hpath := congrArg Resolution.isResolved hseen
  revert hpath
  decide +kernel

end WrapperGen
