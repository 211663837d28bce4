import WrapperGen.Proofs.Types.Spelling
/-!
# Tables in plain spelling

What a resolver knows is looked up by the spelling. In a vocabulary that has one spelling for each
identifier, a name is found exactly if its plain spelling is found in the tables in plain spelling.
So imports lead to the same paths up to spelling, and the tables of a program are, in plain
spelling, those of the program in plain spelling (`SpelledOnce.ofUniverse_plain`).
-/

namespace WrapperGen

open Source

/-! ## Resolvers in plain spelling -/

namespace Resolver

def plain (r : Resolver) : Resolver where
  declared := r.declared.map plainPath
  modules := r.modules.map plainPath
  aliases := r.aliases.map fun a => ⟨plainPath a.module, unraw a.name, plainPath a.target⟩
  globs := r.globs.map fun g => (plainPath g.1, plainPath g.2)

/-- All names that the resolver knows from a program are in the vocabulary. -/
structure IsWritten (names : List String) (r : Resolver) : Prop where
  declared : ∀ p ∈ r.declared, PathOf names p
  modules : ∀ p ∈ r.modules, PathOf names p
  aliases : ∀ a ∈ r.aliases, PathOf names a.module ∧ a.name ∈ names ∧ PathOf names a.target
  globs : ∀ g ∈ r.globs, PathOf names g.1 ∧ PathOf names g.2

variable {names : List String} {r : Resolver}

theorem IsWritten.renamed? (hr : r.IsWritten names) {module name target : String}
    (h : r.renamed? module name = some target) :
    PathOf names module ∧ name ∈ names ∧ PathOf names target := by
  obtain ⟨a, ha, rfl⟩ := Option.map_eq_some_iff.1 h
  have hkeys := List.find?_some ha
  simp only [Bool.and_eq_true, beq_iff_eq] at hkeys
  obtain ⟨rfl, rfl⟩ := hkeys
  exact hr.aliases a (List.mem_of_find?_eq_some ha)

theorem climb_ne_nil {base ns : List String} (hbase : base ≠ []) : (climb base ns).1 ≠ [] := by
  fun_induction climb base ns with
  | case1 base ns ih =>
    refine ih ?_
    split
    · exact List.ne_nil_of_length_pos (by rw [List.length_dropLast]; omega)
    · exact hbase
  | case2 => exact hbase

end Resolver

namespace SpelledOnce

open Resolver

variable {names : List String} (h : SpelledOnce names)
include h

theorem contains_plain {paths : List String} (hpaths : ∀ p ∈ paths, PathOf names p) {path : String}
    (hpath : PathOf names path) :
    (paths.map plainPath).contains (plainPath path) = paths.contains path := by
  rw [Bool.eq_iff_iff, List.contains_iff_mem, List.contains_iff_mem, List.mem_map]
  constructor
  · rintro ⟨p, hp, heq⟩
    exact (h.path_inj (hpaths p hp) hpath).1 heq ▸ hp
  · exact fun hmem => ⟨path, hmem, rfl⟩

theorem contains_unraw {ns : List String} (hns : ns ⊆ names) {n : String} (hn : n ∈ names) :
    (ns.map unraw).contains (unraw n) = ns.contains n := by
  rw [Bool.eq_iff_iff, List.contains_iff_mem, List.contains_iff_mem, List.mem_map]
  constructor
  · rintro ⟨n', hn', heq⟩
    exact h.once n' (hns hn') n hn heq ▸ hn'
  · exact fun hmem => ⟨n, hmem, rfl⟩

section Tables

variable {r : Resolver} (hr : r.IsWritten names)
include hr

theorem isDeclared_plain {path : String} (hpath : PathOf names path) :
    r.plain.isDeclared (plainPath path) = r.isDeclared path :=
  h.contains_plain hr.declared hpath

theorem renamed?_plain {module name : String} (hmodule : PathOf names module)
    (hname : name ∈ names) :
    r.plain.renamed? (plainPath module) (unraw name) =
      (r.renamed? module name).map plainPath := by
  have hkeys : ∀ a ∈ r.aliases,
      (plainPath a.module == plainPath module && unraw a.name == unraw name) =
        (a.module == module && a.name == name) := fun a ha => by
    obtain ⟨hamodule, haname, -⟩ := hr.aliases a ha
    rw [Bool.eq_iff_iff]
    simp only [Bool.and_eq_true, beq_iff_eq]
    rw [h.path_inj hamodule hmodule, h.unraw_eq haname hname]
  rw [renamed?, renamed?, plain, List.find?_map, Option.map_map, Option.map_map]
  generalize r.aliases = aliases at hkeys
  induction aliases with
  | nil => rfl
  | cons a aliases ih =>
    have hrest := ih fun b hb => hkeys b (.tail _ hb)
    rw [List.find?_cons, List.find?_cons, ← hkeys a (.head _)]
    dsimp only [Function.comp_apply]
    split
    · rfl
    · exact hrest

/-! ## Full paths -/

omit hr in
theorem climb_plain : ∀ {base ns : List String}, base ⊆ names → ns ⊆ names →
    (climb base ns).1 ⊆ names ∧ (climb base ns).2 ⊆ names ∧
      climb (base.map unraw) (ns.map unraw) =
        ((climb base ns).1.map unraw, (climb base ns).2.map unraw)
  | base, [], hbase, hns => ⟨hbase, hns, rfl⟩
  | base, n :: ns, hbase, hns => by
    rw [List.cons_subset] at hns
    have hsuper : unraw n = "super" ↔ n = "super" := h.unraw_eq_known hns.1 (by decide)
    by_cases hn : n = "super"
    · subst hn
      have hup : (if base.length > 1 then base.dropLast else base) ⊆ names := by
        split
        · exact List.Subset.trans (List.dropLast_subset base) hbase
        · exact hbase
      have hrest := climb_plain hup hns.2
      rw [climb, List.map_cons, hsuper.2 rfl, climb, List.length_map]
      have hmap : (if base.length > 1 then (base.map unraw).dropLast else base.map unraw) =
          (if base.length > 1 then base.dropLast else base).map unraw := by
        split
        · exact (List.map_dropLast).symm
        · rfl
      rw [hmap]
      exact hrest
    · have hstop : ∀ {base : List String} {n : String} (ns : List String), n ≠ "super" →
          climb base (n :: ns) = (base, n :: ns) := fun ns hn => by
        rw [climb]
        exact fun _ heq => hn (List.cons.inj heq).1
      rw [List.map_cons, hstop _ hn, hstop _ (mt hsuper.1 hn)]
      exact ⟨hbase, List.cons_subset.2 hns, by rw [List.map_cons]⟩

theorem front_plain {module name : String} (hmodule : PathOf names module)
    (hname : name ∈ names) :
    PathOf names (r.front module name) ∧
      r.plain.front (plainPath module) (unraw name) = plainPath (r.front module name) := by
  obtain ⟨hchild, hplain⟩ := h.child_plain hmodule hname
  unfold front
  rw [h.renamed?_plain hr hmodule hname]
  cases htarget : r.renamed? module name with
  | some target => exact ⟨(hr.renamed? htarget).2.2, rfl⟩
  | none =>
    have hcontains := h.contains_plain hr.modules hchild
    rw [hplain] at hcontains
    dsimp only [Option.map_none]
    rw [show r.plain.modules = r.modules.map plainPath from rfl, hcontains]
    split
    · exact ⟨hchild, hplain.symm⟩
    · obtain ⟨hpath, hunraw⟩ := h.pathOf_name hname
      exact ⟨hpath, hunraw.symm⟩

/-- The full path of a path in plain spelling is that path in plain spelling. -/
theorem absolute_plain {module : String} (hmodule : PathOf names module) {ns : List String}
    (hns : ns ⊆ names) :
    PathOf names (r.absolute module ns) ∧
      r.plain.absolute (plainPath module) (ns.map unraw) = plainPath (r.absolute module ns) := by
  cases ns with
  | nil => exact ⟨hmodule, rfl⟩
  | cons first rest =>
    obtain ⟨hfirst, hrest⟩ := List.cons_subset.1 hns
    by_cases hcrate : first = "crate"
    · subst hcrate
      exact ⟨h.pathOf_joinNames (List.cons_ne_nil _ _) hns, (h.plainPath_joinNames hns).symm⟩
    by_cases hself : first = "self"
    · subst hself
      obtain ⟨hpath, hplain⟩ := h.joinOnto_plain hmodule hrest
      exact ⟨hpath, hplain.symm⟩
    by_cases hsuper : first = "super"
    · subst hsuper
      obtain ⟨ms, hne, hms, rfl⟩ := names_of_path hmodule
      obtain ⟨hbase, hnames, hplain⟩ := h.climb_plain hms hns
      have hne' : ms.map unraw ≠ [] := by simpa using hne
      have hbase' : (climb ms ("super" :: rest)).1 ≠ [] := climb_ne_nil hne
      have hsplit : Text.splitPath (joinNames (ms.map unraw)) = ms.map unraw :=
        Text.splitPath_intercalate hne' (h.map_noColon hms)
      obtain ⟨hpath, hjoin⟩ := h.joinOnto_plain (h.pathOf_joinNames hbase' hbase) hnames
      rw [h.plainPath_joinNames hms, List.map_cons, show unraw "super" = "super" by decide,
        absolute, absolute, h.splitPath_joinNames hne hms, hsplit]
      rw [List.map_cons, show unraw "super" = "super" by decide] at hplain
      rw [hplain]
      refine ⟨hpath, ?_⟩
      rw [hjoin, h.plainPath_joinNames hbase]
    · have hword : first ∉ moduleWords := by simp [moduleWords, hcrate, hself, hsuper]
      have hword' : unraw first ∉ moduleWords :=
        mt (h.unraw_mem hfirst (by decide : moduleWords ⊆ knownNames)).1 hword
      obtain ⟨hfront, hplain⟩ := h.front_plain hr hmodule hfirst
      obtain ⟨hpath, hjoin⟩ := h.joinOnto_plain hfront hrest
      rw [List.map_cons, absolute_cons _ _ hword', absolute_cons _ _ hword, hplain]
      exact ⟨hpath, hjoin.symm⟩

/-! ## Reading imports -/

theorem addUse_plain {module : String} (hmodule : PathOf names module) {use : FlatUse}
    (huse : use.IsWritten names) :
    (r.addUse module use).IsWritten names ∧
      r.plain.addUse (plainPath module) use.plain = (r.addUse module use).plain := by
  obtain ⟨hpath, hplain⟩ := h.absolute_plain hr hmodule huse.1
  unfold addUse FlatUse.plain
  dsimp only
  rw [hplain]
  cases hname : use.newName with
  | none =>
    refine ⟨⟨hr.declared, hr.modules, hr.aliases, ?_⟩, by simp [plain]⟩
    exact List.forall_mem_append.2 ⟨hr.globs, by simpa using ⟨hmodule, hpath⟩⟩
  | some name =>
    refine ⟨⟨hr.declared, hr.modules, ?_, hr.globs⟩, by simp [plain]⟩
    exact List.forall_mem_cons.2 ⟨⟨hmodule, huse.2 name hname, hpath⟩, hr.aliases⟩

end Tables

theorem addUses_plain {r : Resolver} (hr : r.IsWritten names) {uses : List (String × FlatUse)}
    (huses : ∀ use ∈ uses, PathOf names use.1 ∧ use.2.IsWritten names) :
    (r.addUses uses).IsWritten names ∧
      r.plain.addUses (uses.map fun use => (plainPath use.1, use.2.plain)) =
        (r.addUses uses).plain := by
  induction uses generalizing r with
  | nil => exact ⟨hr, rfl⟩
  | cons use uses ih =>
    obtain ⟨hmodule, huse⟩ := huses use (.head _)
    obtain ⟨hwritten, hplain⟩ := h.addUse_plain hr hmodule huse
    rw [List.map_cons, addUses_cons, addUses_cons, hplain]
    exact ih hwritten fun use' huse' => huses use' (.tail _ huse')

/-- The tables of a program are those of its plain spelling, where each identifier is spelled in one
way. -/
theorem ofUniverse_plain {u : Universe} (hu : u.IsWritten names) :
    (ofUniverse u).IsWritten names ∧ ofUniverse u.outline = (ofUniverse u).plain := by
  have htables : ∀ f ∈ u.files, SameTables names f.module f.content.items (plainPath f.module)
      (outlines f.content.items) := fun f hf => h.items_plain (hu f hf).1 (hu f hf).2
  have hdeclared : SpelledPlain (PathOf names) plainPath u.declared u.outline.declared := by
    rw [Universe.declared, Universe.declared, Universe.outline, List.flatMap_map]
    exact .flatMap fun f hf => (htables f hf).declared
  have hmodules : SpelledPlain (PathOf names) plainPath u.modules u.outline.modules := by
    rw [Universe.modules, Universe.modules, Universe.outline, List.flatMap_map]
    exact .flatMap fun f hf => (SpelledPlain.single (hu f hf).1 rfl).append (htables f hf).modules
  have huses : SpelledPlain (fun use => PathOf names use.1 ∧ use.2.IsWritten names)
      (fun use => (plainPath use.1, use.2.plain)) u.uses u.outline.uses := by
    rw [Universe.uses, Universe.uses, Universe.outline, List.flatMap_map]
    exact .flatMap fun f hf => (htables f hf).uses
  have hstart : (withoutUses u).IsWritten names :=
    ⟨hdeclared.written, hmodules.written, by simp [withoutUses], by simp [withoutUses]⟩
  have hplain : withoutUses u.outline = (withoutUses u).plain := by
    rw [withoutUses, hdeclared.eq, hmodules.eq]
    rfl
  obtain ⟨hwritten, heq⟩ := h.addUses_plain hstart huses.written
  rw [ofUniverse_eq, ofUniverse_eq, hplain, huses.eq]
  exact ⟨hwritten, heq⟩

end SpelledOnce

end WrapperGen
