import WrapperGen.Proofs.Types.Tables
/-!
# Spellings of names

An identifier can be spelled plain or raw, with `r#` in front. Here are the names and paths of a
vocabulary in which no identifier has two spellings (`SpelledOnce`): they can be told from their
plain spellings. And what the resolver reads of a program, its declarations, its modules and its
imports, is in plain spelling what it reads of the program in plain spelling
(`SpelledOnce.items_plain`).
-/

namespace WrapperGen

open Source

/-- An identifier without the mark of the raw spelling. -/
def unraw (name : String) : String :=
  match name.toList with
  | 'r' :: '#' :: rest => String.ofList rest
  | _ => name

/-- A path with all names in plain spelling. -/
def plainPath (path : String) : String := joinNames ((Text.splitPath path).map unraw)

/-- The names that mean something wherever they are written. -/
def knownNames : List String :=
  Resolver.moduleWords ++ ["Self", "_"] ++ prelude.map (·.1) ++ primitives

/-- A vocabulary of a program: no two of its names are spellings of one identifier, and what is
known everywhere is spelled plain. -/
structure SpelledOnce (names : List String) : Prop where
  noColon : ∀ n ∈ names, NoColon n
  once : ∀ n ∈ names, ∀ n' ∈ names, unraw n = unraw n' → n = n'
  known : ∀ n ∈ names, unraw n ∈ knownNames → unraw n = n

instance (names : List String) : Decidable (SpelledOnce names) :=
  decidable_of_iff ((∀ n ∈ names, NoColon n) ∧
      (∀ n ∈ names, ∀ n' ∈ names, unraw n = unraw n' → n = n') ∧
      ∀ n ∈ names, unraw n ∈ knownNames → unraw n = n)
    ⟨fun h => ⟨h.1, h.2.1, h.2.2⟩, fun h => ⟨h.noColon, h.once, h.known⟩⟩

/-- The names of the path are in the vocabulary. -/
def PathOf (names : List String) (path : String) : Prop := ∀ n ∈ Text.splitPath path, n ∈ names

instance (names : List String) (path : String) : Decidable (PathOf names path) :=
  inferInstanceAs (Decidable (∀ n ∈ Text.splitPath path, n ∈ names))

theorem plainPath_nil : plainPath (joinNames []) = joinNames [] := by decide +kernel

theorem unraw_noColon {n : String} (h : NoColon n) : NoColon (unraw n) := by
  unfold unraw
  split
  · rename_i rest hrest
    rw [NoColon, hrest] at h
    rw [NoColon, String.toList_ofList]
    exact fun hmem => h (.tail _ (.tail _ hmem))
  · exact h

theorem noColon_of_unraw {n : String} (h : NoColon (unraw n)) : NoColon n := by
  unfold unraw at h
  split at h
  · rename_i rest hrest
    rw [NoColon, String.toList_ofList] at h
    rw [NoColon, hrest]
    simpa using h
  · exact h

theorem unraw_known : ∀ n ∈ knownNames, unraw n = n := by decide +kernel

namespace SpelledOnce

variable {names : List String} (h : SpelledOnce names)
include h

/-! ## Names and paths of a vocabulary -/

theorem unraw_eq {n n' : String} (hn : n ∈ names) (hn' : n' ∈ names) :
    unraw n = unraw n' ↔ n = n' :=
  ⟨h.once n hn n' hn', congrArg unraw⟩

theorem unraw_eq_known {n word : String} (hn : n ∈ names) (hword : word ∈ knownNames) :
    unraw n = word ↔ n = word := by
  constructor
  · rintro rfl
    exact (h.known n hn hword).symm
  · rintro rfl
    exact unraw_known n hword

theorem unraw_mem {n : String} (hn : n ∈ names) {known : List String}
    (hknown : known ⊆ knownNames) : unraw n ∈ known ↔ n ∈ known :=
  ⟨fun hmem => (h.known n hn (hknown hmem)) ▸ hmem,
    fun hmem => (unraw_known n (hknown hmem)).symm ▸ hmem⟩

theorem names_inj {ns ns' : List String} (hns : ns ⊆ names) (hns' : ns' ⊆ names)
    (heq : ns.map unraw = ns'.map unraw) : ns = ns' := by
  induction ns generalizing ns' with
  | nil => exact (List.map_eq_nil_iff.1 heq.symm).symm
  | cons n ns ih =>
    obtain ⟨n', rest', rfl, hn, hrest⟩ := List.map_eq_cons_iff.1 heq.symm
    rw [List.cons_subset] at hns hns'
    rw [h.once n hns.1 n' hns'.1 hn.symm, ih hns.2 hns'.2 hrest.symm]

theorem map_noColon {ns : List String} (hns : ns ⊆ names) : ∀ n ∈ ns.map unraw, NoColon n :=
  List.forall_mem_map.2 fun n hn => unraw_noColon (h.noColon n (hns hn))

theorem splitPath_joinNames {ns : List String} (hne : ns ≠ []) (hns : ns ⊆ names) :
    Text.splitPath (joinNames ns) = ns :=
  Text.splitPath_intercalate hne fun n hn => h.noColon n (hns hn)

theorem pathOf_joinNames {ns : List String} (hne : ns ≠ []) (hns : ns ⊆ names) :
    PathOf names (joinNames ns) := by
  rw [PathOf, h.splitPath_joinNames hne hns]
  exact hns

omit h in
/-- A path of the vocabulary is a list of its names. -/
theorem names_of_path {path : String} (hpath : PathOf names path) :
    ∃ ns, ns ≠ [] ∧ ns ⊆ names ∧ path = joinNames ns :=
  ⟨_, Text.splitPath_ne_nil path, hpath, (Text.intercalate_splitPath path).symm⟩

theorem plainPath_joinNames {ns : List String} (hns : ns ⊆ names) :
    plainPath (joinNames ns) = joinNames (ns.map unraw) := by
  by_cases hne : ns = []
  · rw [hne]
    exact plainPath_nil
  · rw [plainPath, h.splitPath_joinNames hne hns]

theorem path_inj {p q : String} (hp : PathOf names p) (hq : PathOf names q) :
    plainPath p = plainPath q ↔ p = q := by
  refine ⟨fun heq => ?_, congrArg plainPath⟩
  obtain ⟨ns, hne, hns, rfl⟩ := names_of_path hp
  obtain ⟨ns', hne', hns', rfl⟩ := names_of_path hq
  rw [h.plainPath_joinNames hns, h.plainPath_joinNames hns'] at heq
  have hmaps := joinNames_inj (by simpa using hne) (by simpa using hne') (h.map_noColon hns)
    (h.map_noColon hns') heq
  rw [h.names_inj hns hns' hmaps]

theorem pathOf_name {n : String} (hn : n ∈ names) : PathOf names n ∧ plainPath n = unraw n := by
  have hns : [n] ⊆ names := by simpa using hn
  have hpath : joinNames [n] = n := String.intercalate_singleton
  have hplain := h.plainPath_joinNames hns
  rw [hpath] at hplain
  exact ⟨hpath ▸ h.pathOf_joinNames (List.cons_ne_nil _ _) hns,
    hplain.trans String.intercalate_singleton⟩

theorem joinOnto_plain {base : String} {rest : List String} (hbase : PathOf names base)
    (hrest : rest ⊆ names) :
    PathOf names (joinOnto base rest) ∧
      plainPath (joinOnto base rest) = joinOnto (plainPath base) (rest.map unraw) := by
  obtain ⟨ns, hne, hns, rfl⟩ := names_of_path hbase
  have hall : ns ++ rest ⊆ names := List.append_subset.2 ⟨hns, hrest⟩
  have hne' : ns.map unraw ≠ [] := by simpa using hne
  rw [joinOnto_joinNames hne, h.plainPath_joinNames hns, joinOnto_joinNames hne',
    h.plainPath_joinNames hall, List.map_append]
  exact ⟨h.pathOf_joinNames (by simp [hne]) hall, rfl⟩

theorem child_plain {module name : String} (hmodule : PathOf names module) (hname : name ∈ names) :
    PathOf names (module ++ "::" ++ name) ∧
      plainPath (module ++ "::" ++ name) = plainPath module ++ "::" ++ unraw name := by
  have hrest : [name] ⊆ names := by simpa using hname
  have hjoin := h.joinOnto_plain hmodule hrest
  rwa [List.map_singleton, joinOnto_singleton, joinOnto_singleton] at hjoin

end SpelledOnce

/-! ## Programs in plain spelling -/

/-- The second list is the plain spelling of the first, which is written in a vocabulary. -/
structure SpelledPlain {α : Type} (isWritten : α → Prop) (plain : α → α) (xs ys : List α) :
    Prop where
  written : ∀ x ∈ xs, isWritten x
  eq : ys = xs.map plain

namespace SpelledPlain

variable {α β : Type} {isWritten : α → Prop} {plain : α → α} {xs ys xs' ys' : List α}

theorem nil : SpelledPlain isWritten plain [] [] := ⟨fun _ hx => absurd hx List.not_mem_nil, rfl⟩

theorem single {x y : α} (hx : isWritten x) (hy : y = plain x) :
    SpelledPlain isWritten plain [x] [y] :=
  ⟨fun _ hmem => List.mem_singleton.1 hmem ▸ hx, by rw [hy, List.map_singleton]⟩

theorem append (hx : SpelledPlain isWritten plain xs ys)
    (hx' : SpelledPlain isWritten plain xs' ys') :
    SpelledPlain isWritten plain (xs ++ xs') (ys ++ ys') :=
  ⟨List.forall_mem_append.2 ⟨hx.written, hx'.written⟩, by rw [hx.eq, hx'.eq, List.map_append]⟩

theorem flatMap {f g : β → List α} {zs : List β}
    (hz : ∀ z ∈ zs, SpelledPlain isWritten plain (f z) (g z)) :
    SpelledPlain isWritten plain (zs.flatMap f) (zs.flatMap g) := by
  induction zs with
  | nil => exact nil
  | cons z zs ih => exact (hz z (.head _)).append (ih fun z' hz' => hz z' (.tail _ hz'))

end SpelledPlain

namespace Source

namespace UseTree

mutual
def plain : UseTree → UseTree
  | .path n tree => .path (unraw n) tree.plain
  | .name n => .name (unraw n)
  | .rename n newName => .rename (unraw n) (unraw newName)
  | .glob => .glob
  | .group trees => .group (plainTrees trees)
def plainTrees : List UseTree → List UseTree
  | [] => []
  | t :: ts => t.plain :: plainTrees ts
end

mutual
def names : UseTree → List String
  | .path n tree => n :: tree.names
  | .name n => [n]
  | .rename n newName => [n, newName]
  | .glob => []
  | .group trees => treesNames trees
def treesNames : List UseTree → List String
  | [] => []
  | t :: ts => t.names ++ treesNames ts
end

end UseTree

mutual
/-- What the resolver reads of an item, in plain spelling: of a declaration only its name. -/
def Item.outline : Item → Item
  | .trait t => .declaration .struct (unraw t.name)
  | .declaration _ name => .declaration .struct (unraw name)
  | .module name (some items) => .module (unraw name) (some (outlines items))
  | .module name none => .module (unraw name) none
  | .use tree => .use tree.plain
  | .impl _ | .other => .other
def outlines : List Item → List Item
  | [] => []
  | i :: is => i.outline :: outlines is
end

mutual
/-- The names that the resolver reads in an item. -/
def Item.names : Item → List String
  | .trait t => [t.name]
  | .declaration _ name => [name]
  | .module name (some items) => name :: itemsNames items
  | .module name none => [name]
  | .use tree => tree.names
  | .impl _ | .other => []
def itemsNames : List Item → List String
  | [] => []
  | i :: is => i.names ++ itemsNames is
end

end Source

/-- What the resolver reads of a universe, in plain spelling. -/
def Universe.outline (u : Universe) : Universe :=
  ⟨u.files.map fun f => ⟨f.path, plainPath f.module, ⟨outlines f.content.items⟩⟩, []⟩

/-- The modules of the files and all names in them are in the vocabulary. -/
def Universe.IsWritten (names : List String) (u : Universe) : Prop :=
  ∀ f ∈ u.files, PathOf names f.module ∧ itemsNames f.content.items ⊆ names

instance (names : List String) (u : Universe) : Decidable (u.IsWritten names) :=
  inferInstanceAs (Decidable (∀ f ∈ u.files, PathOf names f.module ∧
    ∀ n ∈ itemsNames f.content.items, n ∈ names))

namespace FlatUse

def plain (use : FlatUse) : FlatUse := ⟨use.segments.map unraw, use.newName.map unraw⟩

def IsWritten (names : List String) (use : FlatUse) : Prop :=
  use.segments ⊆ names ∧ ∀ n ∈ use.newName, n ∈ names

end FlatUse

namespace SpelledOnce

variable {names : List String}

/-! ## Imports -/

mutual
theorem flattenUse_plain (h : SpelledOnce names) {base : List String} (hbase : base ⊆ names) :
    ∀ {tree : UseTree}, tree.names ⊆ names →
      SpelledPlain (FlatUse.IsWritten names) FlatUse.plain (flattenUse base tree)
        (flattenUse (base.map unraw) tree.plain)
  | .path name tree, htree => by
    rw [UseTree.names, List.cons_subset] at htree
    have hnext : base ++ [name] ⊆ names :=
      List.append_subset.2 ⟨hbase, by simpa using htree.1⟩
    rw [UseTree.plain, flattenUse, flattenUse]
    simpa using flattenUse_plain h hnext htree.2
  | .name name, htree => by
    replace htree : name ∈ names := by simpa [UseTree.names] using htree
    rw [UseTree.plain, flattenUse, flattenUse]
    have hself : unraw name = "self" ↔ name = "self" := h.unraw_eq_known htree (by decide)
    simp only [beq_iff_eq, hself]
    split
    · rw [List.getLast?_map]
      cases hlast : base.getLast? with
      | none => exact .nil
      | some last =>
        have hmem : last ∈ names := hbase (List.mem_of_getLast? hlast)
        exact .single ⟨hbase, by simpa using hmem⟩ rfl
    · have hnext : base ++ [name] ⊆ names := List.append_subset.2 ⟨hbase, by simpa using htree⟩
      exact .single ⟨hnext, by simpa using htree⟩ (by simp [FlatUse.plain])
  | .rename name newName, htree => by
    replace htree : name ∈ names ∧ newName ∈ names := by simpa [UseTree.names] using htree
    rw [UseTree.plain, flattenUse, flattenUse]
    have hself : unraw name = "self" ↔ name = "self" := h.unraw_eq_known htree.1 (by decide)
    have hhidden : unraw newName = "_" ↔ newName = "_" := h.unraw_eq_known htree.2 (by decide)
    simp only [beq_iff_eq, hself, hhidden]
    split
    · exact .nil
    · split
      · exact .single ⟨hbase, by simpa using htree.2⟩ rfl
      · have hnext : base ++ [name] ⊆ names :=
          List.append_subset.2 ⟨hbase, by simpa using htree.1⟩
        exact .single ⟨hnext, by simpa using htree.2⟩ (by simp [FlatUse.plain])
  | .glob, _ => by
    rw [UseTree.plain, flattenUse, flattenUse]
    exact .single ⟨hbase, by simp⟩ rfl
  | .group trees, htree => by
    rw [UseTree.plain, flattenUse, flattenUse]
    exact flattenTrees_plain h hbase (by rwa [UseTree.names] at htree)
theorem flattenTrees_plain (h : SpelledOnce names) {base : List String} (hbase : base ⊆ names) :
    ∀ {trees : List UseTree}, UseTree.treesNames trees ⊆ names →
      SpelledPlain (FlatUse.IsWritten names) FlatUse.plain (flattenTrees base trees)
        (flattenTrees (base.map unraw) (UseTree.plainTrees trees))
  | [], _ => by
    rw [UseTree.plainTrees, flattenTrees, flattenTrees]
    exact .nil
  | tree :: trees, htrees => by
    rw [UseTree.treesNames, List.append_subset] at htrees
    rw [UseTree.plainTrees, flattenTrees, flattenTrees]
    exact (flattenUse_plain h hbase htrees.1).append (flattenTrees_plain h hbase htrees.2)
end

/-! ## Tables -/

/-- What the resolver reads of the items is read of the others in plain spelling. -/
structure SameTables (names : List String) (module : String) (is : List Item) (module' : String)
    (is' : List Item) : Prop where
  declared : SpelledPlain (PathOf names) plainPath (Resolver.itemsDeclared module is)
    (Resolver.itemsDeclared module' is')
  modules : SpelledPlain (PathOf names) plainPath (Resolver.itemsModules module is)
    (Resolver.itemsModules module' is')
  uses : SpelledPlain (fun use => PathOf names use.1 ∧ use.2.IsWritten names)
    (fun use => (plainPath use.1, use.2.plain)) (Resolver.itemsUses module is)
    (Resolver.itemsUses module' is')

theorem SameTables.cons {module module' : String} {i i' : Item} {is is' : List Item}
    (hi : SameTables names module [i] module' [i'])
    (his : SameTables names module is module' is') :
    SameTables names module (i :: is) module' (i' :: is') := by
  obtain ⟨hdeclared, hmodules, huses⟩ := hi
  simp only [Resolver.itemsDeclared, Resolver.itemsModules, Resolver.itemsUses,
    List.append_nil] at hdeclared hmodules huses
  exact ⟨hdeclared.append his.declared, hmodules.append his.modules, huses.append his.uses⟩

/-- A declaration adds its path, and nothing else. -/
theorem SameTables.declaration (h : SpelledOnce names) {module name : String} {i : Item}
    (hmodule : PathOf names module) (hname : name ∈ names)
    (hdeclared : ∀ module, Resolver.itemDeclared module i = [module ++ "::" ++ name])
    (hmodules : ∀ module, Resolver.itemModules module i = [])
    (huses : ∀ module, Resolver.itemUses module i = []) :
    SameTables names module [i] (plainPath module) [.declaration .struct (unraw name)] := by
  obtain ⟨hpath, hplain⟩ := h.child_plain hmodule hname
  constructor
  · rw [Resolver.itemsDeclared, hdeclared]
    exact .single hpath hplain.symm
  · rw [Resolver.itemsModules, hmodules]
    exact .nil
  · rw [Resolver.itemsUses, huses]
    exact .nil

mutual
theorem item_plain (h : SpelledOnce names) {module : String} (hmodule : PathOf names module) :
    ∀ {i : Item}, i.names ⊆ names →
      SameTables names module [i] (plainPath module) [i.outline]
  | .trait t, hi => by
    rw [Item.outline]
    exact .declaration h hmodule (by simpa [Item.names] using hi) (fun _ => rfl) (fun _ => rfl)
      fun _ => rfl
  | .declaration _ name, hi => by
    rw [Item.outline]
    exact .declaration h hmodule (by simpa [Item.names] using hi) (fun _ => rfl) (fun _ => rfl)
      fun _ => rfl
  | .module name (some items), hi => by
    rw [Item.names, List.cons_subset] at hi
    obtain ⟨hpath, hplain⟩ := h.child_plain hmodule hi.1
    obtain ⟨hdeclared, hmodules, huses⟩ := items_plain h hpath hi.2
    rw [hplain] at hdeclared hmodules huses
    rw [Item.outline]
    exact ⟨hdeclared.append .nil,
      ((SpelledPlain.single hpath hplain.symm).append hmodules).append .nil, huses.append .nil⟩
  | .module name none, hi => by
    have hname : name ∈ names := by simpa [Item.names] using hi
    obtain ⟨hpath, hplain⟩ := h.child_plain hmodule hname
    rw [Item.outline]
    exact ⟨.nil, .single hpath hplain.symm, .nil⟩
  | .use tree, hi => by
    have htree : tree.names ⊆ names := by simpa [Item.names] using hi
    obtain ⟨hwritten, heq⟩ := h.flattenUse_plain (List.nil_subset names) htree
    rw [Item.outline]
    refine ⟨.nil, .nil, .append ⟨?_, ?_⟩ .nil⟩
    · rw [Resolver.itemUses]
      exact List.forall_mem_map.2 fun use huse => ⟨hmodule, hwritten use huse⟩
    · rw [List.map_nil] at heq
      rw [Resolver.itemUses, Resolver.itemUses, heq, List.map_map, List.map_map]
      rfl
  | .impl _, _ => ⟨.nil, .nil, .nil⟩
  | .other, _ => ⟨.nil, .nil, .nil⟩
theorem items_plain (h : SpelledOnce names) {module : String} (hmodule : PathOf names module) :
    ∀ {is : List Item}, itemsNames is ⊆ names →
      SameTables names module is (plainPath module) (outlines is)
  | [], _ => ⟨.nil, .nil, .nil⟩
  | i :: is, his => by
    rw [itemsNames, List.append_subset] at his
    rw [outlines]
    exact (item_plain h hmodule his.1).cons (items_plain h hmodule his.2)
end

end SpelledOnce

end WrapperGen
