import Mathlib.Data.List.Induction
import Mathlib.Data.List.Nodup
import WrapperGen.Proofs.Types.Globs
import WrapperGen.Proofs.Types.Operations
/-!
# The order of items

The items of a body may stand in any order: declarations and modules are collected first, and each
`use` is read with what was imported before it, which is all that its path needs if no later one
binds the first name of the path (`absolute_readIn`). Only the glob imports of a module keep their
order, and the first that offers a name has it (`resolveGlobs_eq`). So two orders differ in nothing
but names that different globs are the first to offer (`resolve_reordered_iff`). Globs in another
order do differ so, and a path that comes before what its first name is bound to is read without it
(`import_order_matters`).
-/

namespace WrapperGen

open Source

/-! ## Other orders -/

/-- The items in another order, at any depth. -/
inductive Reordered : List Item → List Item → Prop
  | nil : Reordered [] []
  | cons (i : Item) {is is' : List Item} (rest : Reordered is is') : Reordered (i :: is) (i :: is')
  | body (name : String) {is is' rest : List Item} (content : Reordered is is') :
      Reordered (.module name (some is) :: rest) (.module name (some is') :: rest)
  | swap (i j : Item) (is : List Item) : Reordered (i :: j :: is) (j :: i :: is)
  | trans {is is' is'' : List Item} (first : Reordered is is') (second : Reordered is' is'') :
      Reordered is is''

theorem Reordered.refl (is : List Item) : Reordered is is := by
  induction is with
  | nil => exact .nil
  | cons i _ ih => exact .cons i ih

/-- What is collected item by item is collected from the items in any order. -/
theorem Reordered.perm {α : Type} {part : String → Item → List α}
    {parts : String → List Item → List α}
    (hcons : ∀ module i is, parts module (i :: is) = part module i ++ parts module is)
    (hbody : ∀ module name is is',
      (parts (module ++ "::" ++ name) is).Perm (parts (module ++ "::" ++ name) is') →
        (part module (.module name (some is))).Perm (part module (.module name (some is'))))
    {is is' : List Item} (h : Reordered is is') (module : String) :
    (parts module is).Perm (parts module is') := by
  induction h generalizing module with
  | nil => exact .refl _
  | cons i _ ih =>
    rw [hcons, hcons]
    exact (ih module).append_left _
  | body name _ ih =>
    rw [hcons, hcons]
    exact (hbody module name _ _ (ih _)).append_right _
  | swap i j is =>
    rw [hcons, hcons, hcons, hcons, ← List.append_assoc, ← List.append_assoc]
    exact List.perm_append_comm.append_right _
  | trans _ _ ih ih' => exact (ih module).trans (ih' module)

namespace Universe

/-- The universes have the same files, up to the order of the items in a body. -/
def Reordered (u u' : Universe) : Prop :=
  List.Forall₂ (fun f f' => f'.path = f.path ∧ f'.module = f.module ∧
    WrapperGen.Reordered f.content.items f'.content.items) u.files u'.files

theorem perm_of_files {α : Type} {part : SourceFile → List α} {files files' : List SourceFile}
    (h : List.Forall₂ (fun f f' => (part f).Perm (part f')) files files') :
    (files.flatMap part).Perm (files'.flatMap part) := by
  induction h with
  | nil => exact .refl _
  | cons hf _ ih => exact hf.append ih

namespace Reordered

variable {u u' : Universe} (h : u.Reordered u')
include h

theorem declared : u.declared.Perm u'.declared :=
  perm_of_files <| h.imp fun f f' ⟨_, hmodule, hitems⟩ => by
    rw [hmodule]
    exact hitems.perm (fun _ _ _ => by rw [Resolver.itemsDeclared])
      (fun _ _ _ _ hbody => by rwa [Resolver.itemDeclared, Resolver.itemDeclared]) _

theorem modules : u.modules.Perm u'.modules :=
  perm_of_files <| h.imp fun f f' ⟨_, hmodule, hitems⟩ => by
    rw [hmodule]
    exact (hitems.perm (fun _ _ _ => by rw [Resolver.itemsModules])
      (fun _ _ _ _ hbody => by
        rw [Resolver.itemModules, Resolver.itemModules]
        exact hbody.cons _) _).cons _

theorem uses : u.uses.Perm u'.uses :=
  perm_of_files <| h.imp fun f f' ⟨_, hmodule, hitems⟩ => by
    rw [hmodule]
    exact hitems.perm (fun _ _ _ => by rw [Resolver.itemsUses])
      (fun _ _ _ _ hbody => by rwa [Resolver.itemUses, Resolver.itemUses]) _

theorem usesIn (module : String) : (u.usesIn module).Perm (u'.usesIn module) :=
  (h.uses.filter _).map _

end Reordered

end Universe

/-! ## Imports in order -/

/-- The path of `use` begins with a name that `later` binds to something else than itself. -/
def FlatUse.Awaits (use later : FlatUse) : Prop :=
  ∃ first ∈ use.segments.head?, first ∉ Resolver.moduleWords ∧ later.newName = some first ∧
    later.segments ≠ [first]

instance (use later : FlatUse) : Decidable (use.Awaits later) :=
  inferInstanceAs (Decidable (∃ first ∈ use.segments.head?, _))

/-- No name is bound twice, and no path begins with a name that is bound to something later. -/
structure FlatUse.Ordered (uses : List FlatUse) : Prop where
  once : (uses.filterMap FlatUse.newName).Nodup
  placed : uses.Pairwise fun use later => ¬ use.Awaits later

namespace Resolver

variable {r : Resolver} {module first : String} {use : FlatUse} {uses before after : List FlatUse}

theorem front_readIn_other (h : first ∉ uses.filterMap FlatUse.newName) :
    (r.readIn module uses).front module first = r.front module first :=
  front_congr (renamed?_readIn_other h) (by rw [readIn_modules])

/-- A name that is bound to itself means what it means without this import. -/
theorem front_of_itself (hwords : first ∉ moduleWords)
    (honce : (uses.filterMap FlatUse.newName).Nodup) (hitself : ⟨[first], some first⟩ ∈ uses) :
    (r.readIn module uses).front module first = r.front module first := by
  obtain ⟨before, after, rfl, hbefore, hafter⟩ :=
    FlatUse.split_once hitself rfl (List.count_eq_one_of_mem honce
      (List.mem_filterMap.2 ⟨_, hitself, rfl⟩))
  rw [front_of_renamed (renamed?_readIn_last rfl hafter), absolute_cons _ _ hwords, joinOnto_nil,
    front_readIn_other hbefore]

/-- Where the first name of a path comes from: an earlier import, one that binds it to itself, or
none. -/
theorem origin_of_first (h : FlatUse.Ordered (before ++ use :: after))
    (hfirst : first ∈ use.segments.head?) (hwords : first ∉ moduleWords)
    (hname : use.newName ≠ some first) :
    first ∈ before.filterMap FlatUse.newName ∨
      first ∉ before.filterMap FlatUse.newName ∧ ⟨[first], some first⟩ ∈ before ++ use :: after ∨
      first ∉ (before ++ use :: after).filterMap FlatUse.newName := by
  by_cases hbefore : first ∈ before.filterMap FlatUse.newName
  · exact .inl hbefore
  by_cases hafter : first ∈ after.filterMap FlatUse.newName
  · obtain ⟨later, hlater, hbinds⟩ := List.mem_filterMap.1 hafter
    have hplaced := List.rel_of_pairwise_cons (List.pairwise_append.1 h.placed).2.1 hlater
    have hsegments : later.segments = [first] := by
      by_contra hne
      exact hplaced ⟨first, hfirst, hwords, hbinds, hne⟩
    have hitself : later = ⟨[first], some first⟩ := by
      cases later
      cases hsegments
      cases hbinds
      rfl
    exact .inr (.inl ⟨hbefore, hitself ▸ List.mem_append_right _ (.tail _ hlater)⟩)
  · refine .inr (.inr fun hmem => ?_)
    rw [List.filterMap_append, List.mem_append] at hmem
    obtain ⟨other, hother, hbinds⟩ := List.mem_filterMap.1 (hmem.resolve_left hbefore)
    rcases List.mem_cons.1 hother with rfl | hother
    · exact hname hbinds
    · exact hafter (List.mem_filterMap.2 ⟨other, hother, hbinds⟩)

/-- What is bound earlier is not bound again. -/
theorem not_bound_again (h : FlatUse.Ordered (before ++ after))
    (hbefore : first ∈ before.filterMap FlatUse.newName) :
    first ∉ after.filterMap FlatUse.newName := fun hafter => by
  have honce := h.once
  rw [List.filterMap_append] at honce
  exact (List.disjoint_of_nodup_append honce) hbefore hafter

/-- A path that begins with the name it is bound to means what it means without imports. -/
theorem absolute_readIn_itself (h : FlatUse.Ordered (before ++ use :: after))
    (hitself : ∀ first ∈ use.segments.head?, use.newName = some first) :
    (r.readIn module before).absolute module use.segments = r.absolute module use.segments :=
  absolute_congr fun _ hfirst _ => front_readIn_other fun hbefore =>
    not_bound_again h hbefore (List.mem_filterMap.2 ⟨use, .head _, hitself _ hfirst⟩)

/-- When an import is read, any other path means what it means in the end. -/
theorem absolute_readIn (h : FlatUse.Ordered (before ++ use :: after))
    (hother : ∀ first ∈ use.segments.head?, use.newName ≠ some first) :
    (r.readIn module before).absolute module use.segments =
      (r.readIn module (before ++ use :: after)).absolute module use.segments := by
  refine absolute_congr fun first hfirst hwords => ?_
  rcases origin_of_first h hfirst hwords (hother first hfirst) with
    hbefore | ⟨hbefore, hitself⟩ | hnone
  · rw [readIn_append]
    exact (front_readIn_other (not_bound_again h hbefore)).symm
  · rw [front_of_itself hwords h.once hitself, front_readIn_other hbefore]
  · rw [front_readIn_other hnone, front_readIn_other fun hbefore => hnone (by
      rw [List.filterMap_append]
      exact List.mem_append_left _ hbefore)]

/-- What an import binds, whatever comes before and after it. -/
theorem renamed?_readIn (h : FlatUse.Ordered uses) (huse : use ∈ uses)
    (hname : use.newName = some first) :
    (r.readIn module uses).renamed? module first =
      some ((if use.segments.head? = some first then r else r.readIn module uses).absolute module
        use.segments) := by
  obtain ⟨before, after, rfl, -, hafter⟩ := FlatUse.split_once huse hname
    (List.count_eq_one_of_mem h.once (List.mem_filterMap.2 ⟨use, huse, hname⟩))
  rw [renamed?_readIn_last hname hafter]
  split
  · rename_i hitself
    rw [absolute_readIn_itself h fun other hother => by
      rw [hname, ← hitself]
      exact hother]
  · rename_i hother
    rw [absolute_readIn h fun other hmem heq => hother (by rw [← hname, heq]; exact hmem)]

/-! ## Two orders -/

section Permuted

variable {uses' : List FlatUse} (hperm : uses.Perm uses') (h : FlatUse.Ordered uses)
  (h' : FlatUse.Ordered uses')
include hperm h h'

/-- The names that are bound first mean the same in another order, by induction on how many these
are: a path begins with one of them, or is the same without imports. -/
theorem renamed?_of_perm_first (before after : List FlatUse) (huses : uses = before ++ after) :
    ∀ name ∈ before.filterMap FlatUse.newName,
      (r.readIn module uses).renamed? module name = (r.readIn module uses').renamed? module name := by
  induction before using List.reverseRecOn generalizing after with
  | nil => exact fun name hname => absurd hname List.not_mem_nil
  | append_singleton before use ih =>
    intro name hname
    rw [List.append_assoc, List.singleton_append] at huses
    rw [List.filterMap_append, List.mem_append] at hname
    rcases hname with hname | hname
    · exact ih (use :: after) huses name hname
    obtain ⟨use, huse, hname⟩ := List.mem_filterMap.1 hname
    cases List.mem_singleton.1 huse
    have huse : use ∈ uses := by rw [huses]; exact List.mem_append_right _ (.head _)
    rw [renamed?_readIn h huse hname, renamed?_readIn h' (hperm.mem_iff.1 huse) hname]
    split
    · rfl
    rename_i hother
    refine congrArg some (absolute_congr fun first hfirst hwords => ?_)
    have hordered := h
    rw [huses] at hordered
    have hne : use.newName ≠ some first := fun heq => hother (by rw [← hname, heq]; exact hfirst)
    rcases origin_of_first hordered hfirst hwords hne with hbefore | ⟨-, hitself⟩ | hnone
    · exact front_congr (ih (use :: after) huses first hbefore)
        (by rw [readIn_modules, readIn_modules])
    · rw [← huses] at hitself
      rw [front_of_itself hwords h.once hitself,
        front_of_itself hwords h'.once (hperm.mem_iff.1 hitself)]
    · rw [← huses] at hnone
      rw [front_readIn_other hnone, front_readIn_other fun hmem =>
        hnone ((hperm.filterMap _).mem_iff.2 hmem)]

theorem renamed?_of_perm (name : String) :
    (r.readIn module uses).renamed? module name = (r.readIn module uses').renamed? module name := by
  by_cases hname : name ∈ uses.filterMap FlatUse.newName
  · exact renamed?_of_perm_first hperm h h' uses [] (List.append_nil _).symm name hname
  · rw [renamed?_readIn_other hname, renamed?_readIn_other fun hmem =>
      hname ((hperm.filterMap _).mem_iff.2 hmem)]

end Permuted

theorem moduleGlobs_addUse :
    (r.addUse module use).moduleGlobs module =
      r.moduleGlobs module ++ ([use].filter (·.newName.isNone)).map (r.absolute module ·.segments) := by
  unfold addUse moduleGlobs
  cases hname : use.newName <;> simp [hname]

/-- The glob imports stand in order, each with what its path means in the end. -/
theorem moduleGlobs_readIn (h : FlatUse.Ordered uses) (before after : List FlatUse)
    (huses : uses = before ++ after) :
    (r.readIn module before).moduleGlobs module = r.moduleGlobs module ++
      (before.filter (·.newName.isNone)).map ((r.readIn module uses).absolute module ·.segments) := by
  induction before using List.reverseRecOn generalizing after with
  | nil => exact (List.append_nil _).symm
  | append_singleton before use ih =>
    rw [List.append_assoc, List.singleton_append] at huses
    rw [readIn_append]
    show ((r.readIn module before).addUse module use).moduleGlobs module = _
    have htarget : ([use].filter (·.newName.isNone)).map
          ((r.readIn module before).absolute module ·.segments) =
        ([use].filter (·.newName.isNone)).map ((r.readIn module uses).absolute module ·.segments) := by
      refine List.map_congr_left fun glob hglob => ?_
      obtain ⟨hglob, hnone⟩ := List.mem_filter.1 hglob
      cases List.mem_singleton.1 hglob
      rw [huses] at h ⊢
      exact absolute_readIn h fun first _ hname => by
        rw [hname] at hnone
        cases hnone
    rw [moduleGlobs_addUse, ih (use :: after) huses, htarget, List.filter_append, List.map_append,
      List.append_assoc]

/-! ## Universes -/

theorem Alike.readIn {names : String → Prop} {r' : Resolver} (h : Alike names module r r')
    (huses : ∀ use ∈ uses, ∀ first ∈ use.segments.head?, names first) :
    Alike names module (r.readIn module uses) (r'.readIn module uses) := by
  induction uses generalizing r r' with
  | nil => exact h
  | cons use uses ih =>
    exact ih (h.addUse (huses use (.head _))) fun other hother => huses other (.tail _ hother)

end Resolver

/-- In no module does a path begin with a name that a later import binds to something else. -/
def Universe.Placed (u : Universe) : Prop :=
  ∀ module, (u.usesIn module).Pairwise fun use later => ¬ use.Awaits later

namespace Resolver

/-- The glob imports of a module in order. -/
theorem moduleGlobs_ofUniverse {u : Universe} {module : String}
    (h : FlatUse.Ordered (u.usesIn module)) :
    (ofUniverse u).moduleGlobs module =
      ((u.usesIn module).filter (·.newName.isNone)).map
        ((ofUniverse u).absolute module ·.segments) := by
  have halike := ofUniverse_readIn u module
  rw [halike.globs, moduleGlobs_readIn h _ [] (List.append_nil _).symm]
  exact List.map_congr_left fun use _ => (halike.absolute fun _ _ => trivial).symm

section Reordered

variable {u u' : Universe} (h : u.Reordered u') (honce : ∀ module, (u.boundNames module).Nodup)
  (hplaced : u.Placed) (hplaced' : u'.Placed)
include h honce hplaced hplaced'

theorem sameNames_of_reordered : SameNames (ofUniverse u) (ofUniverse u') where
  declared path := by
    rw [ofUniverse_isDeclared, ofUniverse_isDeclared, Bool.eq_iff_iff, List.contains_iff_mem,
      List.contains_iff_mem, h.declared.mem_iff]
  children module name := by
    rw [ofUniverse_modules, ofUniverse_modules, h.modules.mem_iff]
  renamed module name := by
    have hstart : Alike (fun _ => True) module (withoutUses u) (withoutUses u') :=
      ⟨fun _ => rfl, rfl, fun _ _ => h.modules.mem_iff⟩
    have honce' : (u'.boundNames module).Nodup :=
      ((h.usesIn module).filterMap _).nodup_iff.1 (honce module)
    rw [(ofUniverse_readIn u module).renamed, (ofUniverse_readIn u' module).renamed,
      ← (hstart.readIn fun _ _ _ _ => trivial).renamed]
    exact renamed?_of_perm (h.usesIn module) ⟨honce module, hplaced module⟩
      ⟨honce', hplaced' module⟩ name

theorem moduleGlobs_of_reordered (module : String) :
    ((ofUniverse u).moduleGlobs module).Perm ((ofUniverse u').moduleGlobs module) := by
  have honce' : (u'.boundNames module).Nodup :=
    ((h.usesIn module).filterMap _).nodup_iff.1 (honce module)
  have hsame := sameNames_of_reordered h honce hplaced hplaced'
  rw [moduleGlobs_ofUniverse ⟨honce module, hplaced module⟩,
    moduleGlobs_ofUniverse ⟨honce', hplaced' module⟩]
  simp only [hsame.absolute]
  exact ((h.usesIn module).filter _).map _

end Reordered

/-! ## Names that globs offer -/

/-- Whether a name is believed to be below a glob: another crate has all names. -/
def offers (r : Resolver) (name glob : String) : Bool :=
  !isInternal glob || r.isDeclared (glob ++ "::" ++ name)

/-- The first glob that offers a name has it. -/
theorem resolveGlobs_eq (r : Resolver) (name : String) (arguments : List Ty) (globs : List String) :
    r.resolveGlobs name arguments globs =
      match globs.find? (r.offers name) with
      | some glob => .nominal (glob ++ "::" ++ name) arguments
      | none => .unresolved name := by
  induction globs with
  | nil => rfl
  | cons glob globs ih =>
    rw [resolveGlobs, List.find?_cons, offers, ih]
    cases !isInternal glob || r.isDeclared (glob ++ "::" ++ name) <;> rfl

theorem resolveGlobs_inj {r : Resolver} {name : String} {arguments : List Ty}
    {globs globs' : List String}
    (h : r.resolveGlobs name arguments globs = r.resolveGlobs name arguments globs') :
    globs.find? (r.offers name) = globs'.find? (r.offers name) := by
  rw [resolveGlobs_eq, resolveGlobs_eq] at h
  cases hglob : globs.find? (r.offers name) with
  | none =>
    cases hglob' : globs'.find? (r.offers name) with
    | none => rfl
    | some glob' =>
      rw [hglob, hglob'] at h
      cases h
  | some glob =>
    cases hglob' : globs'.find? (r.offers name) with
    | none =>
      rw [hglob, hglob'] at h
      cases h
    | some glob' =>
      rw [hglob, hglob'] at h
      have hpath := congrArg String.toList (Resolution.nominal.inj h).1
      simp only [String.toList_append, List.append_cancel_right_eq, String.toList_inj] at hpath
      rw [hpath]

variable {r r' : Resolver} {s : Scope}

/-- A name that has a meaning besides the globs has the same one where the same names are known. -/
theorem SameNames.resolveName (h : SameNames r r') {name : String} (hname : ¬ r.SeeksGlobs s name)
    (arguments : List Ty) : r.resolveName s name arguments = r'.resolveName s name arguments := by
  unfold Resolver.resolveName
  rw [← h.renamed]
  dsimp only
  split
  · rfl
  rename_i hparameter
  cases hrenamed : r.renamed? s.module name with
  | some target => exact h.resolvePath target arguments
  | none =>
    dsimp only
    rw [← h.declared]
    split
    · rfl
    rename_i hundeclared
    cases hprelude : prelude.lookup name with
    | some path => rfl
    | none =>
      dsimp only
      split
      · rfl
      rename_i hprimitive
      refine absurd ⟨?_, hrenamed, Bool.eq_false_iff.2 hundeclared, hprelude, ?_⟩ hname
      · simpa [Scope.parameters] using hparameter
      · simpa using hprimitive

end Resolver

/-- The name that is all of a type, if it is one. -/
def Source.Ty.soleName? : Ty → Option String
  | .paren e => soleName? e
  | .path p =>
    if p.leading then none
    else match p.names with
      | [name] => some name
      | _ => none
  | _ => none

/-- Where the same names are known, a type that is no single name means the same, and a single name
means what the lookup of names makes of it. -/
theorem Resolver.SameNames.resolve_iff {r r' : Resolver} (h : SameNames r r') (s : Scope) (t : Ty) :
    r.resolve s t = r'.resolve s t ↔ ∀ name, t.soleName? = some name →
      r.resolveName s name t.applied = r'.resolveName s name t.applied := by
  fun_induction Resolver.resolve r s t with
  | case1 e ih => rwa [Resolver.resolve, Ty.soleName?, Ty.applied]
  | case2 p =>
    rw [Resolver.resolve, Resolver.resolveTypePath, Resolver.resolveTypePath, Ty.soleName?,
      Ty.applied]
    split
    · simp
    · cases p.names with
      | nil => simp [h.absolute, h.resolvePath]
      | cons name rest =>
        cases rest with
        | nil => simp
        | cons => simp [h.absolute, h.resolvePath]
  | case3 t hparen hpath =>
    have hname : t.soleName? = none := by rw [Ty.soleName?] <;> assumption
    have hresolve : r'.resolve s t = .structural := by rw [Resolver.resolve] <;> assumption
    simp [hname, hresolve]

/-- **What the order of items decides.** Let the items of bodies be reordered, where no module binds
a name twice and in neither order a `use` path begins with a name that a later `use` of the module
binds to something else. Then the same globs are imported in each module, and a type means the same
in a scope unless it is a single name without another meaning there which different globs are the
first to offer. -/
theorem resolve_reordered_iff {u u' : Universe} (h : u.Reordered u')
    (honce : ∀ module, (u.boundNames module).Nodup) (hplaced : u.Placed) (hplaced' : u'.Placed) :
    let r := Resolver.ofUniverse u
    let r' := Resolver.ofUniverse u'
    (∀ module, (r.moduleGlobs module).Perm (r'.moduleGlobs module)) ∧
      ∀ s t, r.resolve s t = r'.resolve s t ↔
        ∀ name, t.soleName? = some name → r.SeeksGlobs s name →
          (r.moduleGlobs s.module).find? (r.offers name) =
            (r'.moduleGlobs s.module).find? (r.offers name) := by
  intro r r'
  have hsame : Resolver.SameNames r r' :=
    Resolver.sameNames_of_reordered h honce hplaced hplaced'
  refine ⟨Resolver.moduleGlobs_of_reordered h honce hplaced hplaced', fun s t => ?_⟩
  rw [hsame.resolve_iff]
  refine forall_congr' fun name => imp_congr_right fun _ => ?_
  by_cases hseeks : r.SeeksGlobs s name
  · have hseeks' : r'.SeeksGlobs s name :=
      ⟨hseeks.noParameter, by rw [← hsame.renamed]; exact hseeks.notRenamed,
        by rw [← hsame.declared]; exact hseeks.undeclared, hseeks.noPrelude, hseeks.noPrimitive⟩
    rw [hseeks.resolveName, hseeks'.resolveName, ← hsame.resolveGlobs]
    refine ⟨fun heq _ => Resolver.resolveGlobs_inj heq, fun hfirst => ?_⟩
    rw [Resolver.resolveGlobs_eq, Resolver.resolveGlobs_eq, hfirst hseeks]
  · exact ⟨fun _ hseeks' => absurd hseeks' hseeks, fun _ => hsame.resolveName hseeks _⟩

theorem Universe.boundNames_nodup {u : Universe}
    (h : (u.uses.filterMap (·.2.newName)).Nodup) (module : String) : (u.boundNames module).Nodup := by
  have hmap : ∀ uses : List (String × FlatUse),
      (uses.map (·.2)).filterMap FlatUse.newName = uses.filterMap (·.2.newName) := fun uses => by
    simp [List.filterMap_map]
  rw [boundNames, usesIn, hmap]
  exact h.sublist (List.filter_sublist.filterMap _)

theorem Universe.placed_of_pairwise {u : Universe}
    (h : u.uses.Pairwise fun use later => ¬ use.2.Awaits later.2) : u.Placed := fun _ =>
  List.pairwise_map.2 (h.sublist List.filter_sublist)

/-- A file of these items, next to one that declares a type. -/
def besideModels (items : List Item) : Universe := ⟨[itemFile, .ofItems "api.rs" items], []⟩

theorem besideModels_reordered {items items' : List Item} (h : WrapperGen.Reordered items items') :
    (besideModels items).Reordered (besideModels items') :=
  .cons ⟨rfl, rfl, .refl _⟩ (.cons ⟨rfl, rfl, h⟩ .nil)

/-- The item `use crate::models as m;`. -/
def modelsAs : Item := .use (.path "crate" (.rename "models" "m"))

/-- The item `use m::Item;`. -/
def itemOfM : Item := .use (.path "m" (.name "Item"))

/-- The item `use serde::*;`. -/
def allOfSerde : Item := .use (.path "serde" .glob)

/-- The item `use crate::models::*;`. -/
def allOfModels : Item := .use (.path "crate" (.path "models" .glob))

theorem glob_moved :
    let u := besideModels [modelsAs, itemOfM, allOfSerde]
    let u' := besideModels [allOfSerde, modelsAs, itemOfM]
    u.Reordered u' ∧ ∀ t, (Resolver.ofUniverse u).resolve ⟨"crate::api", []⟩ t =
      (Resolver.ofUniverse u').resolve ⟨"crate::api", []⟩ t := by
  intro u u'
  have hreordered : u.Reordered u' :=
    besideModels_reordered (.trans (.cons _ (.swap _ _ _)) (.swap _ _ _))
  have hplaced : u.Placed := Universe.placed_of_pairwise (by decide +kernel)
  have hplaced' : u'.Placed := Universe.placed_of_pairwise (by decide +kernel)
  obtain ⟨-, hiff⟩ := resolve_reordered_iff hreordered
    (Universe.boundNames_nodup (by decide +kernel)) hplaced hplaced'
  have hglobs : (Resolver.ofUniverse u).moduleGlobs "crate::api" =
      (Resolver.ofUniverse u').moduleGlobs "crate::api" := by decide +kernel
  exact ⟨hreordered, fun t => (hiff _ t).2 fun name _ _ => by rw [hglobs]⟩

/-- The first of two globs that offer a name has it, and a path does not see what its first name is
bound to later. -/
theorem import_order_matters :
    let found (items : List Item) := ((Resolver.ofUniverse (besideModels items)).resolve
      ⟨"crate::api", []⟩ (.path (.ofNamesTo ["Item"] .none))).path?
    ((besideModels [allOfSerde, allOfModels]).Reordered (besideModels [allOfModels, allOfSerde]) ∧
      (∀ module, ((besideModels [allOfSerde, allOfModels]).boundNames module).Nodup) ∧
      found [allOfSerde, allOfModels] = some "serde::Item" ∧
      found [allOfModels, allOfSerde] = some "crate::models::Item") ∧
    ((besideModels [itemOfM, modelsAs]).Reordered (besideModels [modelsAs, itemOfM]) ∧
      (∀ module, ((besideModels [itemOfM, modelsAs]).boundNames module).Nodup) ∧
      found [itemOfM, modelsAs] = some "m::Item" ∧
      found [modelsAs, itemOfM] = some "crate::models::Item") := by
  intro found
  refine ⟨⟨besideModels_reordered (.swap _ _ _), Universe.boundNames_nodup ?_, ?_, ?_⟩,
    ⟨besideModels_reordered (.swap _ _ _), Universe.boundNames_nodup ?_, ?_, ?_⟩⟩
  all_goals decide +kernel

end WrapperGen
