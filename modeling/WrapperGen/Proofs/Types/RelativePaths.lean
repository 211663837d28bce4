import Mathlib.Logic.Function.Iterate
import WrapperGen.Proofs.Types.Globs
import WrapperGen.Proofs.Types.Growth
import WrapperGen.Proofs.Types.Operations
/-!
# Relative paths

A path of the crate begins with words that say where its names begin: `crate` for the root, `self`
for the module that the path is written in, and a `super` for each step up from there. So it has a
place in the tree of modules, the same for a type as for an import (`relative_path_position_iff`).
Only a `super` after `self` is no step up: it is taken for the name of a module, which is never
found (`self_super_lost`).
-/

namespace WrapperGen

open Source

/-! ## Places -/

/-- The path of a place: the names of the modules below the root that lead there. -/
def placePath (place : List String) : String := joinNames ("crate" :: place)

/-- A name, and not one of the words for modules. -/
structure IsPlaceName (n : String) : Prop where
  noColon : NoColon n
  noWord : n ∉ Resolver.moduleWords

instance (n : String) : Decidable (IsPlaceName n) :=
  decidable_of_iff (NoColon n ∧ n ∉ Resolver.moduleWords)
    ⟨fun h => ⟨h.1, h.2⟩, fun h => ⟨h.1, h.2⟩⟩

/-- Where the names of a path begin. -/
inductive Anchor
  /-- At the root. -/
  | crate
  /-- At the module itself, or above it after some `super`s. -/
  | self (supers : Nat)
  /-- Above the module, with one more `super` than this. -/
  | super (supers : Nat)

namespace Anchor

/-- The words at the front of the path. -/
def words : Anchor → List String
  | crate => ["crate"]
  | self n => "self" :: List.replicate n "super"
  | super n => List.replicate (n + 1) "super"

/-- Where the words lead from a place. The root is above itself. -/
def place (here : List String) : Anchor → List String
  | crate => []
  | self n => List.dropLast^[n] here
  | super n => List.dropLast^[n + 1] here

/-- A `super` follows `self`. -/
def ClimbsFromSelf : Anchor → Prop
  | self n => 0 < n
  | _ => False

end Anchor

theorem prefix_of_iterate_dropLast (n : Nat) (place : List String) :
    List.dropLast^[n] place <+: place := by
  induction n with
  | zero => exact List.prefix_refl _
  | succ n ih =>
    rw [Function.iterate_succ_apply']
    exact (List.dropLast_prefix _).trans ih

theorem length_iterate_dropLast (n : Nat) (place : List String) :
    (List.dropLast^[n] place).length = place.length - n := by
  induction n with
  | zero => rfl
  | succ n ih => rw [Function.iterate_succ_apply', List.length_dropLast, ih, Nat.sub_sub]

theorem Anchor.place_subset (a : Anchor) (place : List String) : a.place place ⊆ place := by
  cases a with
  | crate => exact List.nil_subset _
  | self n => exact (prefix_of_iterate_dropLast n place).subset
  | super n => exact (prefix_of_iterate_dropLast (n + 1) place).subset

section

variable {place names : List String} {name : String}

theorem placePath_noColon (hplace : ∀ n ∈ place, NoColon n) :
    ∀ n ∈ "crate" :: place, NoColon n :=
  List.forall_mem_cons.2 ⟨by decide, hplace⟩

theorem placePath_inj {place' : List String} (hplace : ∀ n ∈ place, NoColon n)
    (hplace' : ∀ n ∈ place', NoColon n) (h : placePath place = placePath place') :
    place = place' :=
  (List.cons.inj (joinNames_inj (List.cons_ne_nil _ _) (List.cons_ne_nil _ _)
    (placePath_noColon hplace) (placePath_noColon hplace') h)).2

theorem splitPath_placePath (hplace : ∀ n ∈ place, NoColon n) :
    Text.splitPath (placePath place) = "crate" :: place :=
  Text.splitPath_intercalate (List.cons_ne_nil _ _) (placePath_noColon hplace)

theorem joinOnto_placePath (place names : List String) :
    joinOnto (placePath place) names = placePath (place ++ names) :=
  joinOnto_joinNames (List.cons_ne_nil _ _) names

theorem self_noColon (hplace : ∀ n ∈ place, IsPlaceName n) (hnames : ∀ n ∈ names, IsPlaceName n)
    (n : Nat) : ∀ m ∈ place ++ (List.replicate n "super" ++ names), NoColon m := by
  have hword : NoColon "super" := by decide
  intro m hm
  rcases List.mem_append.1 hm with hm | hm
  · exact (hplace m hm).noColon
  rcases List.mem_append.1 hm with hm | hm
  · rwa [List.eq_of_mem_replicate hm]
  · exact (hnames m hm).noColon

/-! ## Full paths of relative paths -/

namespace Resolver

/-- Each `super` is a step up. -/
theorem climb_supers (hnames : names.head? ≠ some "super") (n : Nat) (place : List String) :
    climb ("crate" :: place) (List.replicate n "super" ++ names) =
      ("crate" :: List.dropLast^[n] place, names) := by
  induction n generalizing place with
  | zero =>
    rw [List.replicate_zero, List.nil_append, climb]
    · rfl
    · rintro rest rfl
      exact hnames rfl
  | succ n ih =>
    have hup : (if ("crate" :: place).length > 1 then ("crate" :: place).dropLast
        else "crate" :: place) = "crate" :: place.dropLast := by
      cases place <;> simp
    rw [List.replicate_succ, List.cons_append, climb, hup, ih, Function.iterate_succ_apply]

/-- After `self` all names are added to the module, also the `super`s. -/
theorem absolute_self (r : Resolver) (place names : List String) (n : Nat) :
    r.absolute (placePath place) ((Anchor.self n).words ++ names) =
      placePath (place ++ (List.replicate n "super" ++ names)) :=
  joinOnto_placePath place _

theorem absolute_anchor (r : Resolver) (hplace : ∀ n ∈ place, IsPlaceName n)
    (hnames : ∀ n ∈ names, IsPlaceName n) {a : Anchor} (ha : ¬ a.ClimbsFromSelf) :
    r.absolute (placePath place) (a.words ++ names) = placePath (a.place place ++ names) := by
  cases a with
  | crate => rfl
  | self n =>
    obtain rfl : n = 0 := Nat.eq_zero_of_not_pos ha
    exact absolute_self r place names 0
  | super n =>
    have hhead : names.head? ≠ some "super" := fun hhead =>
      (hnames _ (List.mem_of_head? hhead)).noWord (by decide)
    have hclimb := climb_supers hhead (n + 1) place
    rw [List.replicate_succ, List.cons_append] at hclimb
    rw [Anchor.words, List.replicate_succ, List.cons_append, absolute,
      splitPath_placePath fun m hm => (hplace m hm).noColon, hclimb]
    exact joinOnto_placePath _ names

/-- The path of a relative path is that of its place, unless a `super` follows `self`. -/
theorem absolute_anchor_iff (r : Resolver) (hplace : ∀ n ∈ place, IsPlaceName n)
    (hnames : ∀ n ∈ names, IsPlaceName n) (a : Anchor) :
    r.absolute (placePath place) (a.words ++ names) = placePath (a.place place ++ names) ↔
      ¬ a.ClimbsFromSelf := by
  refine ⟨fun h hclimbs => ?_, absolute_anchor r hplace hnames⟩
  cases a with
  | crate | super => exact hclimbs
  | self n =>
    have hright : ∀ m ∈ (Anchor.self n).place place ++ names, NoColon m := by
      intro m hm
      rcases List.mem_append.1 hm with hm | hm
      · exact (hplace m (Anchor.place_subset _ place hm)).noColon
      · exact (hnames m hm).noColon
    rw [absolute_self] at h
    -- the `super`s that stay make the path too long
    have hlength := congrArg List.length (placePath_inj (self_noColon hplace hnames n) hright h)
    have hpos : 0 < n := hclimbs
    simp only [Anchor.place, List.length_append, List.length_replicate,
      length_iterate_dropLast] at hlength
    omega

/-! ## Imports -/

/-- The import of a module is in the table, with this path. -/
def Records (r : Resolver) (module : String) (use : FlatUse) (path : String) : Prop :=
  match use.newName with
  | some name => ⟨module, name, path⟩ ∈ r.aliases
  | none => (module, path) ∈ r.globs

theorem addUse_keeps (r : Resolver) (module : String) (use : FlatUse) :
    r.aliases ⊆ (r.addUse module use).aliases ∧ r.globs ⊆ (r.addUse module use).globs := by
  unfold addUse
  dsimp only
  cases use.newName <;> simp

theorem Records.addUses {r : Resolver} {module path : String} {use : FlatUse}
    (h : r.Records module use path) (uses : List (String × FlatUse)) :
    (r.addUses uses).Records module use path := by
  induction uses generalizing r with
  | nil => exact h
  | cons next uses ih =>
    obtain ⟨haliases, hglobs⟩ := addUse_keeps r next.1 next.2
    refine ih ?_
    unfold Records at h ⊢
    split at h
    · exact haliases h
    · exact hglobs h

theorem addUse_records (r : Resolver) (module : String) (use : FlatUse) :
    (r.addUse module use).Records module use (r.absolute module use.segments) := by
  unfold Records addUse
  cases use.newName <;> simp

/-- A path that begins with a word means the same whatever is known. -/
theorem absolute_word (r r' : Resolver) (module : String) {path : List String}
    (hpath : ∀ first ∈ path.head?, first ∈ moduleWords) :
    r.absolute module path = r'.absolute module path :=
  absolute_congr fun first hfirst hword => absurd (hpath first hfirst) hword

theorem ofUniverse_records {u : Universe} {module : String} {use : FlatUse}
    (huse : use ∈ u.usesIn module) (hword : ∀ first ∈ use.segments.head?, first ∈ moduleWords) :
    (ofUniverse u).Records module use ((ofUniverse u).absolute module use.segments) := by
  obtain ⟨before, after, huses⟩ := List.append_of_mem (Universe.mem_usesIn.1 huse)
  rw [absolute_word _ ((withoutUses u).addUses before) module hword, ofUniverse_eq, huses]
  have hsplit : (withoutUses u).addUses (before ++ (module, use) :: after) =
      (((withoutUses u).addUses before).addUse module use).addUses after := by
    simp [addUses]
  rw [hsplit]
  exact (addUse_records _ module use).addUses after

end Resolver

/-! ## Types -/

theorem isInternal_placePath (place : List String) : isInternal (placePath place) = true := by
  cases place with
  | nil => decide
  | cons name place =>
    have hpath : placePath (name :: place) = "crate" ++ "::" ++ joinNames (name :: place) :=
      String.intercalate_cons_of_ne_nil (List.cons_ne_nil _ _)
    rw [hpath]
    exact isInternal_below (by decide) _

/-- The path is written with these names where no type parameter is a word for a module. -/
structure Source.Path.IsRelative (p : Path) (s : Scope) (names : List String) : Prop where
  relative : p.leading = false
  names : p.names = names
  wordsFree : ∀ word ∈ Resolver.moduleWords, word ∉ s.parameters

/-- Nothing is called `super`, as Rust has it. -/
def Universe.NoSuper (u : Universe) : Prop :=
  ∀ path ∈ u.declared ++ u.bodies, "super" ∉ Text.splitPath path

instance (u : Universe) : Decidable u.NoSuper :=
  inferInstanceAs (Decidable (∀ path ∈ u.declared ++ u.bodies, "super" ∉ Text.splitPath path))

namespace Resolver

/-- A path of more than a word is looked up under its full path. -/
theorem resolve_anchor (r : Resolver) {s : Scope} {p : Path} {a : Anchor} (hne : names ≠ [])
    (hp : p.IsRelative s (a.words ++ names)) :
    r.resolve s (.path p) =
      r.resolvePath (r.absolute s.module (a.words ++ names)) (Ty.path p).applied := by
  obtain ⟨first, second, rest, hwords, hfirst⟩ : ∃ first second rest,
      a.words ++ names = first :: second :: rest ∧ first ∈ moduleWords := by
    obtain ⟨name, names, rfl⟩ := List.exists_cons_of_ne_nil hne
    rcases a with _ | (_ | n) | (_ | n)
    · exact ⟨"crate", name, names, rfl, by decide⟩
    · exact ⟨"self", name, names, rfl, by decide⟩
    · exact ⟨"self", "super", _, rfl, by decide⟩
    · exact ⟨"super", name, names, rfl, by decide⟩
    · exact ⟨"super", "super", _, rfl, by decide⟩
  have hfree := hp.wordsFree first hfirst
  simp only [Scope.parameters, List.mem_cons, not_or] at hfree
  rw [resolve, resolveTypePath, hp.names, hwords]
  simp [hp.relative, hfree, Ty.applied]

/-- A path of the crate that is neither declared nor imported is not found. -/
theorem resolvePath_unknown {r : Resolver} (hplace : ∀ n ∈ place, NoColon n) (hname : NoColon name)
    (hdeclared : placePath (place ++ [name]) ∉ r.declared)
    (hrenamed : r.renamed? (placePath place) name = none) (arguments : List Ty) :
    r.resolvePath (placePath (place ++ [name])) arguments =
      .unresolved (placePath (place ++ [name])) := by
  have hsplit : splitLast? (placePath (place ++ [name])) = some (placePath place, name) := by
    rw [placePath, placePath, ← List.cons_append]
    exact splitLast?_concat (List.cons_ne_nil _ _) (placePath_noColon hplace) hname
  rw [resolvePath, if_pos (isInternal_placePath _), resolveInternal, isDeclared, hsplit]
  simp [hdeclared, hrenamed]

/-- A place with a `super` in its path is never found. -/
theorem resolvePath_super {u : Universe} (hsuper : u.NoSuper)
    (hplace : ∀ n ∈ place, NoColon n) (hname : NoColon name) (hmem : "super" ∈ place)
    (arguments : List Ty) :
    (ofUniverse u).resolvePath (placePath (place ++ [name])) arguments =
      .unresolved (placePath (place ++ [name])) := by
  have hall : ∀ n ∈ place ++ [name], NoColon n := by
    simpa [or_imp, forall_and] using ⟨hplace, hname⟩
  refine resolvePath_unknown hplace hname (fun hdeclared => ?_)
    (renamed?_of_noUse (fun hbody => ?_) _) _
  · rw [ofUniverse_eq, addUses_declared] at hdeclared
    refine hsuper _ (List.mem_append_left _ hdeclared) ?_
    rw [splitPath_placePath hall]
    exact .tail _ (List.mem_append_left _ hmem)
  · refine hsuper _ (List.mem_append_right _ hbody) ?_
    rw [splitPath_placePath hplace]
    exact .tail _ hmem

end Resolver

/-- **Relative paths are positions.** A path of the crate stands for the position that its words
lead to, in a type and in an import alike, unless a `super` follows `self`. Then the `super` is taken
for a name, so a type is found nowhere. -/
theorem relative_path_position_iff (u : Universe) (hplace : ∀ n ∈ place, IsPlaceName n)
    (hnames : ∀ n ∈ names, IsPlaceName n) (a : Anchor) :
    let r := Resolver.ofUniverse u
    let words := a.words ++ names
    let meant := a.place place ++ names
    let path := r.absolute (placePath place) words
    (∀ n ∈ meant, IsPlaceName n) ∧
    (path = placePath meant ↔ ¬ a.ClimbsFromSelf) ∧
    (∀ use ∈ u.usesIn (placePath place), use.segments = words →
      r.Records (placePath place) use path) ∧
    (names ≠ [] → ∀ s p, s.module = placePath place → p.IsRelative s words →
      r.resolve s (.path p) = r.resolvePath path (Ty.path p).applied ∧
        (a.ClimbsFromSelf → u.NoSuper → r.resolve s (.path p) = .unresolved path)) := by
  intro r words meant path
  refine ⟨fun n hn => ?_, Resolver.absolute_anchor_iff r hplace hnames a,
    fun use huse hwords => ?_, fun hne s p hmodule hp => ?_⟩
  · rcases List.mem_append.1 hn with hn | hn
    · exact hplace n (Anchor.place_subset a place hn)
    · exact hnames n hn
  · have hfirst : ∀ first ∈ use.segments.head?, first ∈ Resolver.moduleWords := by
      rw [hwords]
      cases a <;> simp [words, Anchor.words, List.replicate_succ, Resolver.moduleWords]
    have hrecords := Resolver.ofUniverse_records huse hfirst
    rwa [hwords] at hrecords
  · have hresolve : r.resolve s (.path p) = r.resolvePath path (Ty.path p).applied := by
      rw [Resolver.resolve_anchor r hne hp, hmodule]
    refine ⟨hresolve, fun hclimbs hsuper => ?_⟩
    cases a with
    | crate | super => exact absurd hclimbs id
    | self n =>
      obtain ⟨front, name, rfl⟩ := (List.eq_nil_or_concat' names).resolve_left hne
      have hpath : path = placePath ((place ++ (List.replicate n "super" ++ front)) ++ [name]) := by
        rw [List.append_assoc, List.append_assoc]
        exact Resolver.absolute_self r place _ n
      rw [hresolve, hpath]
      have hfront := self_noColon hplace (fun m hm => hnames m (List.mem_append_left _ hm)) n
      have hpos : n ≠ 0 := Nat.pos_iff_ne_zero.1 hclimbs
      exact Resolver.resolvePath_super hsuper hfront (hnames name (by simp)).noColon
        (by simp [hpos]) _

end

/-- A type of the root, and a file with an import. -/
def itemAbove (path : String) (tree : UseTree) : Universe :=
  ⟨[.ofItems "lib.rs" [.declaration .struct "Item"], .ofItems path [.use tree]], []⟩

/-- A path with more `super`s than there are modules above leads to the root. -/
theorem root_reached :
    let u := itemAbove "a/b.rs" (.path "super" (.path "super" (.path "super" (.name "Item"))))
    let r := Resolver.ofUniverse u
    let s : Scope := ⟨"crate::a::b", ["T"]⟩
    let words := ["super", "super", "super", "Item"]
    ⟨"crate::a::b", "Item", "crate::Item"⟩ ∈ r.aliases ∧
      r.resolve s (.path (.ofNames words)) = .nominal "crate::Item" [] := by
  intro u r s words
  have hmodule : placePath ["a", "b"] = s.module := by decide +kernel
  obtain ⟨-, hpath, himports, htypes⟩ := relative_path_position_iff u
    (by decide : ∀ n ∈ ["a", "b"], IsPlaceName n) (by decide : ∀ n ∈ ["Item"], IsPlaceName n)
    (.super 2)
  have hitem : placePath ["Item"] = "crate::Item" := by decide +kernel
  have hpath := (hpath.2 id).trans hitem
  have huse : ⟨words, some "Item"⟩ ∈ u.usesIn (placePath ["a", "b"]) := by decide +kernel
  have hrecords := himports _ huse rfl
  obtain ⟨hresolve, -⟩ := htypes (by decide) s (.ofNames words) hmodule.symm ⟨rfl, rfl, by decide⟩
  rw [hpath] at hrecords hresolve
  rw [hmodule] at hrecords
  exact ⟨hrecords,
    hresolve.trans (Resolution.eq_nominal (by decide +kernel) (by decide +kernel))⟩

/-- A `super` after `self` is taken for a name, so what is above the module is not found. -/
theorem self_super_lost :
    let u := itemAbove "api.rs" (.path "self" (.path "super" (.name "Item")))
    let r := Resolver.ofUniverse u
    let s : Scope := ⟨"crate::api", []⟩
    r.resolve s (.path (.ofNames ["super", "Item"])) = .nominal "crate::Item" [] ∧
      r.unresolvedPath? s (.ofNames ["self", "super", "Item"]) =
        some "crate::api::super::Item" ∧
      r.renamed? "crate::api" "Item" = some "crate::api::super::Item" := by
  intro u r s
  exact ⟨Resolution.eq_nominal (by decide +kernel) (by decide +kernel), by decide +kernel,
    by decide +kernel⟩

end WrapperGen
