import WrapperGen.Proofs.Types.WrapperPaths
import WrapperGen.Service.Scan
/-!
# What a module sees

Imports are read one after the other, and those that were read stand at the front of later ones. Yet
the tables of a module depend on its own imports and on the set of modules only: reading imports of
other modules changes nothing (`alike_addUse`), and of two resolvers that are alike in a module the
same path of this module means the same (`Alike.absolute`).
-/

namespace WrapperGen

open Files Source

/-- A qualified name is that of one module and one name in it. -/
theorem qualified_inj {module module' name name' : String} (hname : NoColon name)
    (hname' : NoColon name') (h : module ++ "::" ++ name = module' ++ "::" ++ name') :
    module = module' ∧ name = name' := by
  have hsplit : ∀ {m n : String}, (m ++ "::" ++ n).toList.reverse =
      n.toList.reverse ++ ':' :: (':' :: m.toList.reverse) := fun {m n} => by
    simp [String.toList_append]
  have hreverse := congrArg (fun s => s.toList.reverse) h
  rw [hsplit, hsplit] at hreverse
  have hnames := append_colon_inj (by simpa [NoColon] using hname) (by simpa [NoColon] using hname')
    hreverse
  rw [hnames] at hreverse
  have hmodules := List.append_cancel_left hreverse
  simp only [List.cons.injEq, true_and, List.reverse_inj, String.toList_inj] at hmodules
  exact ⟨hmodules, String.toList_inj.1 (List.reverse_inj.1 hnames)⟩

/-! ## Bodies -/

namespace Resolver

mutual
/-- The modules whose items stand in an item. -/
def itemBodies (module : String) : Item → List String
  | .module name (some items) =>
    (module ++ "::" ++ name) :: itemsBodies (module ++ "::" ++ name) items
  | _ => []
def itemsBodies (module : String) : List Item → List String
  | [] => []
  | i :: is => itemBodies module i ++ itemsBodies module is
end

mutual
theorem itemUses_body {module : String} {use : String × FlatUse} :
    ∀ {i : Item}, use ∈ itemUses module i → use.1 ∈ module :: itemBodies module i
  | .use tree, h => by
    rw [itemUses] at h
    obtain ⟨flat, -, rfl⟩ := List.mem_map.1 h
    exact .head _
  | .module name (some items), h => by
    rw [itemUses] at h
    rw [itemBodies]
    exact .tail _ (itemsUses_body h)
  | .module name none, h | .trait t, h | .impl _, h | .declaration _ name, h | .other, h => by
    simp [itemUses] at h
theorem itemsUses_body {module : String} {use : String × FlatUse} :
    ∀ {is : List Item}, use ∈ itemsUses module is → use.1 ∈ module :: itemsBodies module is
  | [], h => absurd h List.not_mem_nil
  | i :: is, h => by
    rw [itemsUses] at h
    rw [itemsBodies, List.mem_cons, List.mem_append]
    rcases List.mem_append.1 h with h | h
    · exact (List.mem_cons.1 (itemUses_body h)).imp_right .inl
    · exact (List.mem_cons.1 (itemsUses_body h)).imp_right .inr
end

end Resolver

mutual
theorem scanItem_body {marker : String} {origin : FilePath} {module : String} {d : Declared} :
    ∀ {i : Item}, d ∈ scanItem marker origin module i →
      d.packageName ∈ module :: Resolver.itemBodies module i ∧
        d.qualifiedName = d.packageName ++ "::" ++ d.simpleName
  | .trait t, h => by
    rw [scanItem] at h
    split at h
    · cases List.mem_singleton.1 h
      exact ⟨.head _, rfl⟩
    · exact absurd h List.not_mem_nil
  | .module name (some items), h => by
    rw [scanItem] at h
    rw [Resolver.itemBodies]
    exact (scanItems_body h).imp_left (.tail _)
  | .module name none, h | .use _, h | .impl _, h | .declaration _ name, h | .other, h => by
    simp [scanItem] at h
/-- A marked trait stands in a body of its module. -/
theorem scanItems_body {marker : String} {origin : FilePath} {module : String} {d : Declared} :
    ∀ {is : List Item}, d ∈ scanItems marker origin module is →
      d.packageName ∈ module :: Resolver.itemsBodies module is ∧
        d.qualifiedName = d.packageName ++ "::" ++ d.simpleName
  | [], h => absurd h List.not_mem_nil
  | i :: is, h => by
    rw [scanItems] at h
    rw [Resolver.itemsBodies, List.mem_cons, List.mem_append]
    rcases List.mem_append.1 h with h | h
    · exact (scanItem_body h).imp_left fun hbody => (List.mem_cons.1 hbody).imp_right .inl
    · exact (scanItems_body h).imp_left fun hbody => (List.mem_cons.1 hbody).imp_right .inr
end

namespace SourceFile

/-- The modules whose items stand in a file. -/
def bodies (f : SourceFile) : List String :=
  f.module :: Resolver.itemsBodies f.module f.content.items

/-- The modules that a file makes known. -/
def modules (f : SourceFile) : List String :=
  f.module :: Resolver.itemsModules f.module f.content.items

def uses (f : SourceFile) : List (String × FlatUse) :=
  Resolver.itemsUses f.module f.content.items

/-- The marked traits of a file. -/
def marked (marker : String) (f : SourceFile) : List Declared :=
  scanItems marker f.path f.module f.content.items

theorem uses_body {f : SourceFile} : ∀ use ∈ f.uses, use.1 ∈ f.bodies :=
  fun _ huse => Resolver.itemsUses_body huse

end SourceFile

namespace Universe

/-- The modules whose items stand in some file. -/
def bodies (u : Universe) : List String := u.files.flatMap SourceFile.bodies

/-- The paths of all declarations. -/
def declared (u : Universe) : List String :=
  u.files.flatMap fun f => Resolver.itemsDeclared f.module f.content.items

end Universe

/-! ## Tables -/

namespace Resolver

/-- Two resolvers know the same imports of a module, and the same of those modules in it whose
names satisfy `names`. -/
structure Alike (names : String → Prop) (module : String) (r r' : Resolver) : Prop where
  renamed : ∀ name, r.renamed? module name = r'.renamed? module name
  globs : r.moduleGlobs module = r'.moduleGlobs module
  children : ∀ name, names name →
    (module ++ "::" ++ name ∈ r.modules ↔ module ++ "::" ++ name ∈ r'.modules)

namespace Alike

variable {names : String → Prop} {module : String} {r r' r'' : Resolver}

theorem refl (r : Resolver) : Alike names module r r := ⟨fun _ => rfl, rfl, fun _ _ => .rfl⟩

theorem symm (h : Alike names module r r') : Alike names module r' r :=
  ⟨fun name => (h.renamed name).symm, h.globs.symm, fun name hn => (h.children name hn).symm⟩

theorem trans (h : Alike names module r r') (h' : Alike names module r' r'') :
    Alike names module r r'' :=
  ⟨fun name => (h.renamed name).trans (h'.renamed name), h.globs.trans h'.globs,
    fun name hn => (h.children name hn).trans (h'.children name hn)⟩

theorem absolute (h : Alike names module r r') {path : List String}
    (hpath : ∀ first ∈ path.head?, names first) :
    r.absolute module path = r'.absolute module path :=
  absolute_congr fun first hfirst _ =>
    front_congr (h.renamed first) (h.children first (hpath first hfirst))

/-- Resolvers stay alike when the same import of the module is read. -/
theorem addUse (h : Alike names module r r') {use : FlatUse}
    (huse : ∀ first ∈ use.segments.head?, names first) :
    Alike names module (r.addUse module use) (r'.addUse module use) := by
  have htarget := h.absolute huse
  constructor
  · intro name
    have hname := h.renamed name
    unfold Resolver.addUse renamed? at *
    dsimp only at *
    cases use.newName with
    | none => exact hname
    | some new =>
      by_cases hnew : new = name
      · simp [hnew, htarget]
      · simp [hnew, hname]
  · have hglobs := h.globs
    unfold Resolver.addUse moduleGlobs at *
    dsimp only at *
    cases use.newName with
    | none => simp only [htarget, List.filterMap_append, hglobs]
    | some new => exact hglobs
  · intro name hn
    rw [addUse_modules, addUse_modules]
    exact h.children name hn

end Alike

variable {names : String → Prop} {module : String}

/-- Imports of other modules say nothing of a module. -/
theorem alike_addUse (r : Resolver) {other : String} (use : FlatUse) (h : other ≠ module) :
    Alike names module (r.addUse other use) r := by
  refine ⟨fun name => addUse_renamed? r use name h, ?_, fun name _ => by rw [addUse_modules]⟩
  unfold addUse moduleGlobs
  dsimp only
  cases use.newName with
  | none => simp [h]
  | some new => rfl

/-- Reads imports in order. -/
def addUses (r : Resolver) (uses : List (String × FlatUse)) : Resolver :=
  uses.foldl (fun r (module, use) => r.addUse module use) r

@[simp] theorem addUses_cons (r : Resolver) (use : String × FlatUse)
    (uses : List (String × FlatUse)) :
    r.addUses (use :: uses) = (r.addUse use.1 use.2).addUses uses := rfl

/-- What a resolver knows of a module after reading imports, it knows from those of the module. -/
theorem alike_addUses {r r' : Resolver} (h : Alike names module r r')
    {uses : List (String × FlatUse)}
    (huses : ∀ use ∈ uses, use.1 = module → ∀ first ∈ use.2.segments.head?, names first) :
    Alike names module (r.addUses uses) (r'.addUses (uses.filter (·.1 = module))) := by
  induction uses generalizing r r' with
  | nil => exact h
  | cons use uses ih =>
    have hrest := fun u hu => huses u (.tail _ hu)
    by_cases hmodule : use.1 = module
    · rw [List.filter_cons_of_pos (by simpa using hmodule), addUses_cons, addUses_cons, hmodule]
      exact ih (h.addUse (huses use (.head _) hmodule)) hrest
    · rw [List.filter_cons_of_neg (by simpa using hmodule), addUses_cons]
      exact ih ((alike_addUse r use.2 hmodule).trans h) hrest

theorem addUses_modules (r : Resolver) (uses : List (String × FlatUse)) :
    (r.addUses uses).modules = r.modules := by
  induction uses generalizing r with
  | nil => rfl
  | cons use uses ih => rw [addUses_cons, ih, addUse_modules]

theorem addUses_declared (r : Resolver) (uses : List (String × FlatUse)) :
    (r.addUses uses).declared = r.declared := by
  induction uses generalizing r with
  | nil => rfl
  | cons use uses ih =>
    rw [addUses_cons, ih]
    unfold addUse
    dsimp only
    split <;> rfl

/-! ## Universes -/

/-- A universe before its imports are read. -/
def withoutUses (u : Universe) : Resolver := ⟨u.declared, u.modules, [], []⟩

theorem ofUniverse_eq (u : Universe) : ofUniverse u = (withoutUses u).addUses u.uses := rfl

theorem ofUniverse_isDeclared (u : Universe) (path : String) :
    (ofUniverse u).isDeclared path = u.declared.contains path := by
  rw [isDeclared, ofUniverse_eq, addUses_declared]
  rfl

theorem ofUniverse_modules (u : Universe) : (ofUniverse u).modules = u.modules := by
  rw [ofUniverse_eq, addUses_modules]
  rfl

theorem mem_ofUniverse_declared {u : Universe} {path : String} :
    (ofUniverse u).isDeclared path = true ↔
      ∃ f ∈ u.files, path ∈ itemsDeclared f.module f.content.items := by
  rw [ofUniverse_isDeclared, List.contains_iff_mem]
  exact List.mem_flatMap

/-- The resolvers of two universes are alike in a module with the same imports in both, if they know
the same modules in it. -/
theorem ofUniverse_alike {u u' : Universe}
    (huses : u.uses.filter (·.1 = module) = u'.uses.filter (·.1 = module))
    (hnames : ∀ use ∈ u.uses, use.1 = module → ∀ first ∈ use.2.segments.head?, names first)
    (hchildren : ∀ name, names name →
      (module ++ "::" ++ name ∈ u.modules ↔ module ++ "::" ++ name ∈ u'.modules)) :
    Alike names module (ofUniverse u) (ofUniverse u') := by
  have hstart : Alike names module (withoutUses u) (withoutUses u') :=
    ⟨fun _ => rfl, rfl, hchildren⟩
  have hnames' : ∀ use ∈ u'.uses, use.1 = module →
      ∀ first ∈ use.2.segments.head?, names first := fun use huse hmodule => by
    have hmem : use ∈ u.uses.filter (·.1 = module) := by
      rw [huses]
      exact List.mem_filter.2 ⟨huse, by simpa using hmodule⟩
    exact hnames use (List.mem_filter.1 hmem).1 hmodule
  rw [ofUniverse_eq, ofUniverse_eq]
  refine (alike_addUses hstart hnames).trans ?_
  rw [huses]
  exact (alike_addUses (Alike.refl _) hnames').symm

/-! ## Looking names up -/

/-- Two resolvers know the same declarations and modules and the same imported names. -/
structure SameNames (r r' : Resolver) : Prop where
  declared : ∀ path, r.isDeclared path = r'.isDeclared path
  children : ∀ module name, module ++ "::" ++ name ∈ r.modules ↔ module ++ "::" ++ name ∈ r'.modules
  renamed : ∀ module name, r.renamed? module name = r'.renamed? module name

namespace SameNames

variable {r r' : Resolver} (h : SameNames r r')
include h

theorem absolute (module : String) (path : List String) :
    r.absolute module path = r'.absolute module path :=
  absolute_congr fun first _ _ => front_congr (h.renamed module first) (h.children module first)

theorem resolveInternal (path : String) (arguments : List Ty) :
    r.resolveInternal path arguments = r'.resolveInternal path arguments := by
  unfold Resolver.resolveInternal
  simp only [h.declared, h.renamed]

theorem resolvePath (path : String) (arguments : List Ty) :
    r.resolvePath path arguments = r'.resolvePath path arguments := by
  unfold Resolver.resolvePath
  rw [h.resolveInternal]

theorem resolveGlobs (name : String) (arguments : List Ty) (globs : List String) :
    r.resolveGlobs name arguments globs = r'.resolveGlobs name arguments globs := by
  induction globs with
  | nil => rfl
  | cons glob globs ih => rw [Resolver.resolveGlobs, Resolver.resolveGlobs, h.declared, ih]

end SameNames

end Resolver

end WrapperGen
