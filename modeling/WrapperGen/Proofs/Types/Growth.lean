import WrapperGen.Proofs.Rounds.Reports
import WrapperGen.Proofs.Types.Tables
import WrapperGen.Proofs.Types.Unresolved
/-!
# Adding files

Files that bring new modules, all of them announced where a known module is directly above them, do
not take away the meaning of a type (`growth_keeps_known`). They cannot touch the imports of a known
module or the modules in it, and what they declare is only added.
-/

namespace WrapperGen

open Source

/-! ## Paths

No name that is read from a text holds a colon. What is needed here is that no path begins with one
that does. -/

def Source.Ty.PlainHeads (t : Ty) : Prop :=
  ∀ p ∈ t.paths, ∀ first ∈ p.names.head?, NoColon first

def Declared.PlainHeads (d : Declared) : Prop :=
  ∀ m ∈ d.item.methods, ∀ t ∈ m.signature.types, t.PlainHeads

def Universe.PlainImports (u : Universe) : Prop :=
  ∀ use ∈ u.uses, ∀ first ∈ use.2.segments.head?, NoColon first

instance (t : Ty) : Decidable t.PlainHeads :=
  inferInstanceAs (Decidable (∀ p ∈ t.paths, ∀ first ∈ p.names.head?, NoColon first))

instance (d : Declared) : Decidable d.PlainHeads :=
  inferInstanceAs (Decidable (∀ m ∈ d.item.methods, ∀ t ∈ m.signature.types, t.PlainHeads))

instance (u : Universe) : Decidable u.PlainImports :=
  inferInstanceAs (Decidable (∀ use ∈ u.uses, ∀ first ∈ use.2.segments.head?, NoColon first))

/-! ## Growth -/

namespace Universe

/-- The modules that the items of a universe declare. -/
def announced (u : Universe) : List String :=
  u.files.flatMap fun f => Resolver.itemsModules f.module f.content.items

/-- A universe with further files, in any places between the old ones: their modules are new, and
those that are directly in an old one were announced in it. -/
structure GrowsTo (u u' : Universe) (isNew : SourceFile → Bool) : Prop where
  kept : u'.files.filter (!isNew ·) = u.files
  newBodies : ∀ f ∈ u'.files, isNew f → ∀ m ∈ f.bodies, m ∉ u.bodies
  newModules : ∀ f ∈ u'.files, isNew f → ∀ parent ∈ u.bodies, ∀ name, NoColon name →
    parent ++ "::" ++ name ∈ f.modules → parent ++ "::" ++ name ∈ u.announced

theorem announced_modules {u : Universe} {m : String} (hm : m ∈ u.announced) : m ∈ u.modules := by
  obtain ⟨f, hf, hm⟩ := List.mem_flatMap.1 hm
  exact List.mem_flatMap.2 ⟨f, hf, .tail _ hm⟩

namespace GrowsTo

variable {u u' : Universe} {isNew : SourceFile → Bool} (h : u.GrowsTo u' isNew)
include h

theorem files {f : SourceFile} : f ∈ u.files ↔ f ∈ u'.files ∧ isNew f = false := by
  rw [← h.kept, List.mem_filter]
  simp

/-- What only old files have is what there was. -/
theorem flatMap_files {α : Type} (part : SourceFile → List α)
    (hnew : ∀ f ∈ u'.files, isNew f → part f = []) :
    u'.files.flatMap part = u.files.flatMap part := by
  rw [← h.kept]
  generalize u'.files = fs at hnew
  induction fs with
  | nil => rfl
  | cons f fs ih =>
    have hrest := ih fun g hg => hnew g (.tail _ hg)
    by_cases hf : isNew f
    · rw [List.flatMap_cons, hnew f (.head _) hf, List.filter_cons_of_neg (by simpa using hf),
        hrest, List.nil_append]
    · rw [List.flatMap_cons, List.filter_cons_of_pos (by simpa using hf), List.flatMap_cons, hrest]

theorem scan {marker : String} {d : Declared} (hd : d ∈ scan u marker) :
    d ∈ WrapperGen.scan u' marker := by
  obtain ⟨f, hf, hd⟩ := List.mem_flatMap.1 hd
  exact List.mem_flatMap.2 ⟨f, (h.files.1 hf).1, hd⟩

/-- The imports of an old module stay the same. -/
theorem uses {module : String} (hmodule : module ∈ u.bodies) :
    u.uses.filter (·.1 = module) = u'.uses.filter (·.1 = module) := by
  have hfiles := h.flatMap_files (fun f => f.uses.filter (·.1 = module)) fun f hf hnew => by
    rw [List.filter_eq_nil_iff]
    intro use huse heq
    exact h.newBodies f hf hnew use.1 (SourceFile.uses_body use huse)
      ((of_decide_eq_true heq) ▸ hmodule)
  rw [← List.filter_flatMap, ← List.filter_flatMap] at hfiles
  exact hfiles.symm

/-- No module appears in an old one. -/
theorem children {module name : String} (hmodule : module ∈ u.bodies) (hname : NoColon name) :
    module ++ "::" ++ name ∈ u.modules ↔ module ++ "::" ++ name ∈ u'.modules := by
  constructor
  · intro hm
    obtain ⟨f, hf, hm⟩ := List.mem_flatMap.1 hm
    exact List.mem_flatMap.2 ⟨f, (h.files.1 hf).1, hm⟩
  · intro hm
    obtain ⟨f, hf, hm⟩ := List.mem_flatMap.1 hm
    by_cases hnew : isNew f
    · exact announced_modules (h.newModules f hf hnew module hmodule name hname hm)
    · exact List.mem_flatMap.2 ⟨f, h.files.2 ⟨hf, by simpa using hnew⟩, hm⟩

end GrowsTo

end Universe

/-! ## Resolution -/

namespace Resolver

/-- Whatever the first resolver knows, the second knows too. -/
structure Extends (r r' : Resolver) : Prop where
  declared : ∀ path, r.isDeclared path = true → r'.isDeclared path = true
  renamed : ∀ module name target, r.renamed? module name = some target →
    r'.renamed? module name = some target

theorem renamed?_of_noUse {u : Universe} {module : String} (h : module ∉ u.bodies) (name : String) :
    (ofUniverse u).renamed? module name = none := by
  have huses : ∀ use ∈ u.uses, use.1 ≠ module := fun use huse heq => by
    obtain ⟨f, hf, huse⟩ := List.mem_flatMap.1 huse
    exact h (List.mem_flatMap.2 ⟨f, hf, heq ▸ SourceFile.uses_body use huse⟩)
  exact (foldl_addUse huses (withoutUses u) name).2

section Growth

variable {u u' : Universe} {isNew : SourceFile → Bool} (h : u.GrowsTo u' isNew)
  (hu : u.PlainImports)
include h hu

theorem alike_of_growth {module : String} (hmodule : module ∈ u.bodies) :
    Alike NoColon module (ofUniverse u) (ofUniverse u') :=
  ofUniverse_alike (h.uses hmodule) (fun use huse _ => hu use huse)
    fun _ hname => h.children hmodule hname

theorem extends_of_growth : Extends (ofUniverse u) (ofUniverse u') where
  declared path hpath := by
    rw [mem_ofUniverse_declared] at hpath ⊢
    obtain ⟨f, hf, hpath⟩ := hpath
    exact ⟨f, (h.files.1 hf).1, hpath⟩
  renamed module name target htarget := by
    by_cases hmodule : module ∈ u.bodies
    · rwa [← (alike_of_growth h hu hmodule).renamed]
    · rw [renamed?_of_noUse hmodule] at htarget
      cases htarget

end Growth

variable {r r' : Resolver} {n : String}

namespace Extends

variable (h : Extends r r')
include h

theorem not_declared {path : String} (hpath : r'.isDeclared path = false) :
    r.isDeclared path = false :=
  Bool.eq_false_iff.2 fun hr => Bool.eq_false_iff.1 hpath (h.declared path hr)

/-- What is imported under a path is still imported under it. -/
theorem renamed_path {path target : String}
    (htarget : ((splitLast? path).bind fun (parent, name) => r.renamed? parent name) =
      some target) :
    ((splitLast? path).bind fun (parent, name) => r'.renamed? parent name) = some target := by
  obtain ⟨⟨parent, name⟩, hsplit, hname⟩ := Option.bind_eq_some_iff.1 htarget
  exact Option.bind_eq_some_iff.2 ⟨(parent, name), hsplit, h.renamed parent name target hname⟩

theorem resolveInternal {path : String} {arguments : List Ty}
    (hn : r'.resolveInternal path arguments = .unresolved n) :
    r.resolveInternal path arguments = .unresolved n := by
  unfold Resolver.resolveInternal at hn ⊢
  split at hn
  · cases hn
  · rename_i hdeclared
    rw [h.not_declared (Bool.eq_false_iff.2 hdeclared), if_neg (by decide)]
    split
    · rename_i target htarget
      rw [h.renamed_path htarget] at hn
      dsimp only at hn
      split at hn
      · cases hn
      · rename_i hknown
        simp only [Bool.or_eq_true, not_or, Bool.not_eq_true] at hknown
        rw [hknown.1, h.not_declared hknown.2]
        exact hn
    · split at hn
      · split at hn
        · cases hn
        · exact hn
      · exact hn

theorem resolvePath {path : String} {arguments : List Ty}
    (hn : r'.resolvePath path arguments = .unresolved n) :
    r.resolvePath path arguments = .unresolved n := by
  unfold Resolver.resolvePath at hn ⊢
  split at hn
  · rename_i hinternal
    rw [if_pos hinternal]
    exact h.resolveInternal hn
  · cases hn

theorem resolveGlobs {name : String} {arguments : List Ty} {globs : List String}
    (hn : r'.resolveGlobs name arguments globs = .unresolved n) :
    r.resolveGlobs name arguments globs = .unresolved n := by
  induction globs with
  | nil => exact hn
  | cons glob globs ih =>
    rw [Resolver.resolveGlobs] at hn ⊢
    split at hn
    · cases hn
    · rename_i hknown
      simp only [Bool.or_eq_true, not_or, Bool.not_eq_true] at hknown
      rw [hknown.1, h.not_declared hknown.2]
      exact ih hn

theorem resolveName {s : Scope} (ha : Alike NoColon s.module r r') {name : String}
    {arguments : List Ty} (hn : r'.resolveName s name arguments = .unresolved n) :
    r.resolveName s name arguments = .unresolved n := by
  unfold Resolver.resolveName at hn ⊢
  rw [ha.renamed, ha.globs]
  dsimp only at hn ⊢
  split at hn
  · cases hn
  · rename_i hgeneric
    rw [if_neg hgeneric]
    cases hr : r'.renamed? s.module name with
    | some target =>
      rw [hr] at hn
      exact h.resolvePath hn
    | none =>
      rw [hr] at hn
      dsimp only at hn ⊢
      split at hn
      · cases hn
      · rename_i hdeclared
        rw [h.not_declared (Bool.eq_false_iff.2 hdeclared), if_neg (by decide)]
        cases hp : prelude.lookup name with
        | some path =>
          rw [hp] at hn
          cases hn
        | none =>
          rw [hp] at hn
          dsimp only at hn ⊢
          split at hn
          · cases hn
          · rename_i hprimitive
            rw [if_neg hprimitive]
            exact h.resolveGlobs hn

/-- A path that is unknown with more was unknown before, under the same name. -/
theorem resolveTypePath {s : Scope} (ha : Alike NoColon s.module r r') {p : Path}
    (hp : ∀ first ∈ p.names.head?, NoColon first)
    (hn : r'.resolveTypePath s p = .unresolved n) : r.resolveTypePath s p = .unresolved n := by
  unfold Resolver.resolveTypePath at hn ⊢
  dsimp only at hn ⊢
  split at hn
  · cases hn
  · rename_i hleading
    rw [if_neg hleading]
    split at hn
    · exact h.resolveName ha hn
    · split at hn
      · cases hn
      · rename_i hgeneric
        rw [if_neg hgeneric, ha.absolute hp]
        exact h.resolvePath hn

theorem unresolvedNames {s : Scope} (ha : Alike NoColon s.module r r') {t : Ty}
    (ht : t.PlainHeads) : r'.unresolvedNames s t ⊆ r.unresolvedNames s t := by
  intro n hn
  obtain ⟨p, hp, hn⟩ := mem_unresolvedNames.1 hn
  refine mem_unresolvedNames.2 ⟨p, hp, ?_⟩
  unfold unresolvedPath? at hn ⊢
  split at hn
  · rename_i name hunknown
    rw [h.resolveTypePath ha (ht p hp) hunknown]
    exact hn
  · cases hn

end Extends

end Resolver

/-- **Growing a universe leaves known types known.** Let a universe be extended by files whose
modules are new, where those directly in an old module were announced in it. Then in every scope of
an old module every type has no other unknown names than before; so every service has no other
unknown types than before, and one without any stays so. Paths are taken to begin with names without
colons, as all do that are read from a text. -/
theorem growth_keeps_known {u u' : Universe} {isNew : SourceFile → Bool}
    (h : u.GrowsTo u' isNew) (hu : u.PlainImports) :
    (∀ s t, s.module ∈ u.bodies → t.PlainHeads →
      (Resolver.ofUniverse u').unresolvedNames s t ⊆
        (Resolver.ofUniverse u).unresolvedNames s t) ∧
    ∀ c, ∀ d ∈ scan u c.marker, d.PlainHeads → d ∈ scan u' c.marker ∧
      unresolvedIn c (.ofUniverse u') d ⊆ unresolvedIn c (.ofUniverse u) d ∧
      (unresolvedIn c (.ofUniverse u) d = [] → unresolvedIn c (.ofUniverse u') d = []) := by
  have hextends := Resolver.extends_of_growth h hu
  have htypes : ∀ s t, s.module ∈ u.bodies → t.PlainHeads →
      (Resolver.ofUniverse u').unresolvedNames s t ⊆
        (Resolver.ofUniverse u).unresolvedNames s t := fun s t hs ht =>
    hextends.unresolvedNames (Resolver.alike_of_growth h hu hs) ht
  refine ⟨htypes, fun c d hd hplain => ?_⟩
  have hsubset : unresolvedIn c (.ofUniverse u') d ⊆ unresolvedIn c (.ofUniverse u) d := by
    intro n hn
    obtain ⟨m, hm, t, ht, hn⟩ := mem_unresolvedIn.1 hn
    refine mem_unresolvedIn.2 ⟨m, hm, t, ht, htypes _ t ?_ ?_ hn⟩
    · obtain ⟨f, hf, hd⟩ := List.mem_flatMap.1 hd
      exact List.mem_flatMap.2 ⟨f, hf, (scanItems_body hd).1⟩
    · exact hplain m (List.mem_filter.1 hm).1 t ht
  exact ⟨h.scan hd, hsubset, fun hnone => List.subset_nil.1 (hnone ▸ hsubset)⟩

/-- A service with two types, one of which is of a module whose file is missing. -/
def halfKnown : SourceFile :=
  let content := [.module "late" none, .declaration .struct "Known",
    .use (.path "self" (.path "late" (.name "Item"))),
    .trait (markedTrait "Api" ["Send", "Sync"] [getter "known" "Known", getter "item" "Item"])]
  ⟨⟨"api.rs"⟩, modulePath ⟨"api.rs"⟩, ⟨content⟩⟩

/-- The missing file. -/
def lateItem : SourceFile :=
  ⟨⟨"api/late.rs"⟩, modulePath ⟨"api/late.rs"⟩, ⟨[.declaration .struct "Item"]⟩⟩

theorem late_file_grows :
    Universe.GrowsTo ⟨[halfKnown], []⟩ ⟨[lateItem, halfKnown], []⟩
      (·.module = "crate::api::late") where
  kept := by
    have hlate : lateItem.module = "crate::api::late" := by decide +kernel
    have hold : halfKnown.module ≠ "crate::api::late" := by decide +kernel
    simp [hlate, hold]
  newBodies := by decide +kernel
  newModules f hf hnew parent _ name _ hmodule := by
    have hlate : f = lateItem := by
      have hold : halfKnown.module ≠ "crate::api::late" := by decide +kernel
      rcases List.mem_cons.1 hf with rfl | hf
      · rfl
      · cases List.mem_singleton.1 hf
        exact absurd (of_decide_eq_true hnew) hold
    have hmodules : lateItem.modules = ["crate::api::late"] := by decide +kernel
    rw [hlate, hmodules, List.mem_singleton] at hmodule
    rw [hmodule]
    decide +kernel

/-- With the file the service has one unknown type less, and no other. -/
theorem late_file_resolves :
    let u : Universe := ⟨[halfKnown], []⟩
    let u' : Universe := ⟨[lateItem, halfKnown], []⟩
    ∃ d ∈ scan u Config.default.marker, d ∈ scan u' Config.default.marker ∧
      unresolvedIn .default (.ofUniverse u) d = ["crate::api::late::Item"] ∧
      unresolvedIn .default (.ofUniverse u') d = [] ∧
      unresolvedIn .default (.ofUniverse u') d ⊆ unresolvedIn .default (.ofUniverse u) d := by
  intro u u'
  obtain ⟨-, hservices⟩ := growth_keeps_known late_file_grows (by decide +kernel)
  have hscan : (scan u Config.default.marker).map (fun d =>
      (unresolvedIn .default (.ofUniverse u) d, unresolvedIn .default (.ofUniverse u') d)) =
      [(["crate::api::late::Item"], [])] := by decide +kernel
  obtain ⟨d, ds, hd, hfound, -⟩ := List.map_eq_cons_iff.1 hscan
  obtain ⟨hbefore, hafter⟩ := Prod.mk.inj hfound
  have hmem : d ∈ scan u Config.default.marker := by rw [hd]; exact .head _
  have hplain : ∀ d ∈ scan u Config.default.marker, d.PlainHeads := by decide +kernel
  obtain ⟨hmem', hsubset, -⟩ := hservices .default d hmem (hplain d hmem)
  exact ⟨d, hmem, hmem', hbefore, hafter, hsubset⟩

end WrapperGen
