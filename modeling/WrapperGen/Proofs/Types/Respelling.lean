import Mathlib.Data.List.Forall2
import WrapperGen.Proofs.Types.RelativePaths
import WrapperGen.Proofs.Types.Missing
import WrapperGen.Proofs.Types.PlainTables
/-!
# Respelling a program

Every step of the resolution commutes with the plain spelling, in a vocabulary that has one spelling
for each identifier (`SpelledOnce.resolveTypePath_plain`). So two spellings of a program, each of
which is consistent, give the same answers up to spelling, and a name that is spelled in two ways in
one program is not found (`respelling_irrelevant`). The name of a file has no raw spelling, so a
module that needs one cannot be spelled consistently (`raw_name_unknown`).
-/

namespace WrapperGen

open Source

/-! ## Resolutions in plain spelling -/

/-- The kind of the resolution and the name in it, in plain spelling. -/
def Resolution.plain : Resolution → Resolution
  | nominal path _ => nominal (plainPath path) []
  | generic name => generic (plainPath name)
  | structural => structural
  | unresolved name => unresolved (plainPath name)

namespace Scope

def plain (s : Scope) : Scope := ⟨plainPath s.module, s.generics.map unraw⟩

def IsWritten (names : List String) (s : Scope) : Prop :=
  PathOf names s.module ∧ s.generics ⊆ names

instance (names : List String) (s : Scope) : Decidable (s.IsWritten names) :=
  inferInstanceAs (Decidable (PathOf names s.module ∧ ∀ n ∈ s.generics, n ∈ names))

end Scope

/-- The names of a path in plain spelling, without arguments. -/
def Source.Path.outline (p : Path) : Path := ⟨p.leading, p.names.map fun n => .plain (unraw n)⟩

theorem isInternal_joinNames {first : String} (hfirst : NoColon first) (rest : List String) :
    isInternal (joinNames (first :: rest)) = (first == "crate") := by
  by_cases hcrate : first = "crate"
  · subst hcrate
    exact isInternal_placePath rest
  · rw [beq_eq_false_iff_ne.2 hcrate]
    cases rest with
    | nil =>
      have hname : joinNames [first] = first := String.intercalate_singleton
      rw [hname, isInternal, Bool.or_eq_false_iff, beq_eq_false_iff_ne, Bool.eq_false_iff]
      refine ⟨hcrate, fun hlead => ?_⟩
      obtain ⟨tail, htail⟩ := String.startsWith_string_iff.1 hlead
      exact hfirst (htail ▸ List.mem_append_left tail (by decide))
    | cons second rest => exact not_isInternal hfirst hcrate

theorem splitLast?_name {name : String} (hname : NoColon name) : splitLast? name = none := by
  have hsplit : Text.splitOn [':', ':'] 0 [] name.toList.reverse = [name.toList.reverse] :=
    Text.splitOn_colons_last (by simpa [NoColon] using hname)
  rw [splitLast?, hsplit]

theorem lookup_of_not_mem {name : String} (h : name ∉ prelude.map (·.1)) :
    prelude.lookup name = none :=
  List.lookup_eq_none_iff.2 fun p hp => by
    simpa using fun heq : name = p.1 => h (heq ▸ List.mem_map_of_mem hp)

theorem plainPath_prelude {name path : String} (h : prelude.lookup name = some path) :
    plainPath path = path := by
  have hall : ∀ p ∈ prelude, plainPath p.2 = p.2 := by decide +kernel
  obtain ⟨before, after, heq, -⟩ := List.lookup_eq_some_iff.1 h
  exact hall (name, path) (by rw [heq]; simp)

namespace SpelledOnce

open Resolver

variable {names : List String} (h : SpelledOnce names)
include h

theorem isInternal_plain {path : String} (hpath : PathOf names path) :
    isInternal (plainPath path) = isInternal path := by
  obtain ⟨ns, hne, hns, rfl⟩ := names_of_path hpath
  obtain ⟨first, rest, rfl⟩ := List.exists_cons_of_ne_nil hne
  have hfirst := (List.cons_subset.1 hns).1
  rw [h.plainPath_joinNames hns, List.map_cons, isInternal_joinNames (h.noColon first hfirst),
    isInternal_joinNames (unraw_noColon (h.noColon first hfirst)), Bool.eq_iff_iff, beq_iff_eq,
    beq_iff_eq, h.unraw_eq_known hfirst (by decide)]

/-- The last name of a path is split off in plain spelling too. -/
theorem splitLast?_plain {path : String} (hpath : PathOf names path) :
    (splitLast? path = none ∧ splitLast? (plainPath path) = none) ∨
      ∃ parent name, PathOf names parent ∧ name ∈ names ∧
        splitLast? path = some (parent, name) ∧
        splitLast? (plainPath path) = some (plainPath parent, unraw name) := by
  obtain ⟨ns, hne, hns, rfl⟩ := names_of_path hpath
  rw [h.plainPath_joinNames hns]
  obtain ⟨front, last, rfl⟩ := (List.eq_nil_or_concat' ns).resolve_left hne
  obtain ⟨hfront, hlast⟩ := List.append_subset.1 hns
  have hlast : last ∈ names := hlast (.head _)
  by_cases hnil : front = []
  · subst hnil
    refine .inl ⟨splitLast?_name (h.noColon last hlast), ?_⟩
    exact splitLast?_name (unraw_noColon (h.noColon last hlast))
  · refine .inr ⟨joinNames front, last, h.pathOf_joinNames hnil hfront, hlast,
      splitLast?_concat hnil (fun n hn => h.noColon n (hfront hn)) (h.noColon last hlast), ?_⟩
    rw [h.plainPath_joinNames hfront, List.map_append, List.map_singleton]
    exact splitLast?_concat (by simpa using hnil) (h.map_noColon hfront)
      (unraw_noColon (h.noColon last hlast))

theorem lookup_prelude {name : String} (hname : name ∈ names) :
    prelude.lookup (unraw name) = prelude.lookup name := by
  have hkeys : prelude.map (·.1) ⊆ knownNames := by decide
  by_cases hmem : name ∈ prelude.map (·.1)
  · rw [unraw_known name (hkeys hmem)]
  · have hmem' := mt (h.unraw_mem hname hkeys).1 hmem
    rw [lookup_of_not_mem hmem, lookup_of_not_mem hmem']

section Tables

variable {r : Resolver} (hr : r.IsWritten names)
include hr

theorem resolveInternal_plain {path : String} (hpath : PathOf names path) (arguments : List Ty) :
    r.plain.resolveInternal (plainPath path) [] = (r.resolveInternal path arguments).plain := by
  unfold resolveInternal
  rw [h.isDeclared_plain hr hpath]
  split
  · rfl
  · rcases h.splitLast?_plain hpath with
      ⟨hnone, hnone'⟩ | ⟨parent, name, hparent, hname, hsome, hsome'⟩
    · rw [hnone, hnone']
      rfl
    · rw [hsome, hsome']
      dsimp only [Option.bind_some]
      rw [h.renamed?_plain hr hparent hname]
      cases htarget : r.renamed? parent name with
      | none => rfl
      | some target =>
        have hpath := (hr.renamed? htarget).2.2
        dsimp only [Option.map_some]
        rw [h.isInternal_plain hpath, h.isDeclared_plain hr hpath]
        split <;> rfl

theorem resolvePath_plain {path : String} (hpath : PathOf names path) (arguments : List Ty) :
    r.plain.resolvePath (plainPath path) [] = (r.resolvePath path arguments).plain := by
  unfold resolvePath
  rw [h.isInternal_plain hpath, h.resolveInternal_plain hr hpath arguments]
  split <;> rfl

theorem resolveGlobs_plain {name : String} (hname : name ∈ names) (arguments : List Ty)
    {globs : List String} (hglobs : ∀ g ∈ globs, PathOf names g) :
    r.plain.resolveGlobs (unraw name) [] (globs.map plainPath) =
      (r.resolveGlobs name arguments globs).plain := by
  induction globs with
  | nil => exact congrArg Resolution.unresolved (h.pathOf_name hname).2.symm
  | cons glob globs ih =>
    obtain ⟨hchild, hplain⟩ := h.child_plain (hglobs glob (.head _)) hname
    rw [List.map_cons, resolveGlobs, resolveGlobs, ← hplain, h.isDeclared_plain hr hchild,
      h.isInternal_plain (hglobs glob (.head _)), ih fun g hg => hglobs g (.tail _ hg)]
    split <;> rfl

theorem moduleGlobs_plain {module : String} (hmodule : PathOf names module) :
    (∀ g ∈ r.moduleGlobs module, PathOf names g) ∧
      r.plain.moduleGlobs (plainPath module) = (r.moduleGlobs module).map plainPath := by
  have hglobs := hr.globs
  unfold moduleGlobs plain
  dsimp only
  rw [List.filterMap_map, List.map_filterMap]
  refine ⟨fun g hg => ?_, List.filterMap_congr fun g hg => ?_⟩
  · obtain ⟨entry, hentry, hmatch⟩ := List.mem_filterMap.1 hg
    split at hmatch
    · cases hmatch
      exact (hglobs entry hentry).2
    · cases hmatch
  · have hkey := h.path_inj (hglobs g hg).1 hmodule
    simp only [Function.comp_apply, beq_iff_eq, hkey]
    split <;> rfl

theorem resolveName_plain {s : Scope} (hs : s.IsWritten names) {name : String}
    (hname : name ∈ names) (arguments : List Ty) :
    r.plain.resolveName s.plain (unraw name) [] = (r.resolveName s name arguments).plain := by
  obtain ⟨hpath, hplain⟩ := h.pathOf_name hname
  obtain ⟨hown, hownPlain⟩ := h.child_plain hs.1 hname
  obtain ⟨hglobs, hglobsPlain⟩ := h.moduleGlobs_plain hr hs.1
  have hself : (unraw name == "Self") = (name == "Self") := by
    rw [Bool.eq_iff_iff, beq_iff_eq, beq_iff_eq, h.unraw_eq_known hname (by decide)]
  have hprimitive : primitives.contains (unraw name) = primitives.contains name := by
    rw [Bool.eq_iff_iff, List.contains_iff_mem, List.contains_iff_mem,
      h.unraw_mem hname (by decide : primitives ⊆ knownNames)]
  unfold resolveName Scope.plain
  dsimp only
  rw [hself, h.contains_unraw hs.2 hname, h.renamed?_plain hr hs.1 hname]
  split
  · exact congrArg Resolution.generic hplain.symm
  · cases htarget : r.renamed? s.module name with
    | some target => exact h.resolvePath_plain hr (hr.renamed? htarget).2.2 arguments
    | none =>
      dsimp only [Option.map_none]
      rw [← hownPlain, h.isDeclared_plain hr hown]
      split
      · rfl
      · rw [h.lookup_prelude hname]
        cases hlookup : prelude.lookup name with
        | some path => exact congrArg (Resolution.nominal · []) (plainPath_prelude hlookup).symm
        | none =>
          dsimp only
          rw [hprimitive]
          split
          · exact congrArg (Resolution.nominal · []) hplain.symm
          · rw [hglobsPlain]
            exact h.resolveGlobs_plain hr hname arguments hglobs

theorem resolveTypePath_plain {s : Scope} (hs : s.IsWritten names) {p : Path}
    (hp : p.names ⊆ names) :
    r.plain.resolveTypePath s.plain p.outline = (r.resolveTypePath s p).plain := by
  have houtline : p.outline.names = p.names.map unraw := by
    simp [Path.outline, Path.names, Segment.plain]
  have harguments :
      (p.outline.segments.getLast?.map fun l => Ty.argumentTypes l.args).getD [] = [] := by
    rw [Path.outline, List.getLast?_map]
    cases p.names.getLast? <;> rfl
  unfold resolveTypePath
  dsimp only
  rw [harguments, houtline, show p.outline.leading = p.leading from rfl]
  split
  · exact congrArg (Resolution.nominal · []) (h.plainPath_joinNames hp).symm
  · generalize p.names = path at hp
    obtain _ | ⟨first, _ | ⟨second, rest⟩⟩ := path
    · exact h.resolvePath_plain hr hs.1 _
    · exact h.resolveName_plain hr hs (hp (.head _)) _
    · have hfirst : first ∈ names := hp (.head _)
      have hself : (unraw first == "Self") = (first == "Self") := by
        rw [Bool.eq_iff_iff, beq_iff_eq, beq_iff_eq, h.unraw_eq_known hfirst (by decide)]
      obtain ⟨hpath, hplain⟩ := h.absolute_plain hr hs.1 hp
      have hgeneric : (unraw first == "Self" || s.plain.generics.contains (unraw first)) =
          (first == "Self" || s.generics.contains first) := by
        rw [hself]
        exact congrArg _ (h.contains_unraw hs.2 hfirst)
      rw [List.map_cons, List.map_cons] at hplain ⊢
      dsimp only
      rw [List.head?_cons, List.head?_cons, Option.any_some, Option.any_some, hgeneric]
      split
      · exact congrArg Resolution.generic (h.plainPath_joinNames hp).symm
      · rw [show s.plain.module = plainPath s.module from rfl, hplain]
        exact h.resolvePath_plain hr hpath _

end Tables

end SpelledOnce

/-! ## Unresolved names -/

namespace Resolver

variable {r : Resolver} {arguments : List Ty} {n : String}

theorem resolvePath_unresolved {path : String} (h : r.resolvePath path arguments = .unresolved n) :
    n = path := by
  unfold resolvePath resolveInternal at h
  repeat' split at h
  all_goals cases h
  all_goals rfl

theorem resolveGlobs_unresolved {name : String} {globs : List String}
    (h : r.resolveGlobs name arguments globs = .unresolved n) : n = name := by
  induction globs with
  | nil =>
    cases h
    rfl
  | cons glob globs ih =>
    rw [resolveGlobs] at h
    split at h
    · cases h
    · exact ih h

variable {names : List String}

theorem resolveName_unresolved (h : SpelledOnce names) (hr : r.IsWritten names) {s : Scope}
    {name : String} (hname : name ∈ names) (hn : r.resolveName s name arguments = .unresolved n) :
    PathOf names n := by
  unfold resolveName at hn
  dsimp only at hn
  split at hn
  · cases hn
  · split at hn
    · rename_i htarget
      exact resolvePath_unresolved hn ▸ (hr.renamed? htarget).2.2
    · repeat' split at hn
      all_goals try cases hn
      exact resolveGlobs_unresolved hn ▸ (h.pathOf_name hname).1

/-- A missing name is made of names of the program. -/
theorem resolveTypePath_unresolved (h : SpelledOnce names) (hr : r.IsWritten names) {s : Scope}
    (hs : s.IsWritten names) {p : Path} (hp : p.names ⊆ names)
    (hn : r.resolveTypePath s p = .unresolved n) : PathOf names n := by
  unfold resolveTypePath at hn
  dsimp only at hn
  split at hn
  · cases hn
  · split at hn
    · rename_i name hnames
      exact resolveName_unresolved h hr (hp (by rw [hnames]; exact .head _)) hn
    · split at hn
      · cases hn
      · exact resolvePath_unresolved hn ▸ (h.absolute_plain hr hs.1 hp).1

end Resolver

namespace SpelledOnce

open Resolver

variable {names : List String} (h : SpelledOnce names)
include h

/-- Names are collected in plain spelling as they are collected. -/
theorem addNew_plain {ns : List String} (hns : ∀ n ∈ ns, PathOf names n) :
    (addNew [] ns).map plainPath = addNew [] (ns.map plainPath) := by
  induction ns using List.reverseRecOn with
  | nil => rfl
  | append_singleton ns n ih =>
    rw [List.forall_mem_append] at hns
    have hmem : plainPath n ∈ addNew [] (ns.map plainPath) ↔ n ∈ addNew [] ns := by
      simp only [mem_addNew, List.not_mem_nil, false_or, List.mem_map]
      constructor
      · rintro ⟨n', hn', heq⟩
        exact (h.path_inj (hns.1 n' hn') (hns.2 n (.head _))).1 heq ▸ hn'
      · exact fun hn => ⟨n, hn, rfl⟩
    rw [List.map_append, List.map_singleton, addNew_concat, addNew_concat, ← ih hns.1]
    rw [← ih hns.1] at hmem
    simp only [hmem]
    split
    · rfl
    · rw [List.map_append, List.map_singleton]

variable {r : Resolver} (hr : r.IsWritten names) {s : Scope} (hs : s.IsWritten names)
include hr hs

/-- The missing names among some paths, in plain spelling. -/
theorem missing_plain {ps : List Path} (hps : ∀ p ∈ ps, p.names ⊆ names) :
    (∀ n ∈ ps.filterMap (r.unresolvedPath? s), PathOf names n) ∧
      (ps.filterMap (r.unresolvedPath? s)).map plainPath =
        (ps.map Path.outline).filterMap (r.plain.unresolvedPath? s.plain) := by
  constructor
  · intro n hn
    obtain ⟨p, hp, hmissing⟩ := List.mem_filterMap.1 hn
    refine resolveTypePath_unresolved h hr hs (hps p hp) ?_
    have hresolve := unresolvedPath?_eq_some.1 hmissing
    rwa [resolve] at hresolve
  · rw [List.map_filterMap, List.filterMap_map]
    refine List.filterMap_congr fun p hp => ?_
    rw [Function.comp_apply, unresolvedPath?, unresolvedPath?,
      h.resolveTypePath_plain hr hs (hps p hp)]
    cases r.resolveTypePath s p <;> rfl

end SpelledOnce

/-! ## Respelling -/

namespace Source

/-- What matters of a phrase where types are resolved. -/
inductive Outline
  | path (p : Path)
  | paren
  | other

def Phrase.outline : Phrase → Outline
  | ty (.path p) => .path p.outline
  | ty (.paren _) => .paren
  | _ => .other

/-- The types have the same shape, with the same type paths in the same places up to spelling. -/
def Ty.Respells (t t' : Ty) : Prop :=
  ∀ address, ((Phrase.ty t).at? address).map Phrase.outline =
    ((Phrase.ty t').at? address).map Phrase.outline

def Ty.IsWritten (names : List String) (t : Ty) : Prop := ∀ p ∈ t.paths, p.names ⊆ names

instance (names : List String) (t : Ty) : Decidable (t.IsWritten names) :=
  inferInstanceAs (Decidable (∀ p ∈ t.paths, ∀ n ∈ p.names, n ∈ names))

theorem Phrase.outline_eq_path {x : Phrase} {q : Path} :
    x.outline = .path q ↔ ∃ p, x = ty (.path p) ∧ p.outline = q := by
  unfold outline
  split
  · simp
  · simp
  · rename_i hpath hparen
    simp only [reduceCtorEq, false_iff, not_exists, not_and]
    exact fun p hp => absurd hp (hpath p)

theorem Ty.outline_eq_paren {t : Ty} : (Phrase.ty t).outline = .paren ↔ ∃ e, t = .paren e := by
  cases t <;> simp [Phrase.outline]

theorem Ty.outlines_listed (t : Ty) :
    Listed (fun a q => ((Phrase.ty t).at? a).map Phrase.outline = some (.path q))
      (t.paths.map Path.outline) := by
  have hlisted := (Phrase.ty t).listed.filterMap fun p => some p.outline
  rw [show (fun p => some (Path.outline p)) = some ∘ Path.outline from rfl,
    List.filterMap_eq_map] at hlisted
  refine hlisted.congr fun a q => ?_
  simp only [Option.map_eq_some_iff, Phrase.outline_eq_path]
  constructor
  · rintro ⟨p, hp, hq⟩
    exact ⟨_, hp, p, rfl, Option.some.inj hq⟩
  · rintro ⟨_, hx, p, rfl, hq⟩
    exact ⟨p, hx, congrArg some hq⟩

variable {t t' : Ty}

/-- Respelled types have the same type paths up to spelling. -/
theorem Ty.Respells.paths (h : t.Respells t') :
    t.paths.map Path.outline = t'.paths.map Path.outline := by
  refine t.outlines_listed.unique (t'.outlines_listed.congr fun a q => ?_)
  rw [h a]

end Source

/-- The methods have the same type parameters and types up to spelling. -/
structure Source.Method.Respells (m m' : Method) : Prop where
  generics : m.signature.generics.typeNames.map unraw = m'.signature.generics.typeNames.map unraw
  types : List.Forall₂ Ty.Respells m.signature.types m'.signature.types

def Source.Method.IsWritten (names : List String) (m : Method) : Prop :=
  m.signature.generics.typeNames ⊆ names ∧ ∀ t ∈ m.signature.types, t.IsWritten names

theorem Source.Method.IsWritten.types_names {names : List String} {m : Method}
    (hm : m.IsWritten names) : ∀ p ∈ m.signature.types.flatMap Ty.paths, p.names ⊆ names :=
  fun p hp => by
    obtain ⟨t, ht, hp⟩ := List.mem_flatMap.1 hp
    exact hm.2 t ht p hp

/-- The declarations have the same operations, in the same module, up to spelling. -/
structure Declared.Respells (c : Config) (d d' : Declared) : Prop where
  package : plainPath d.packageName = plainPath d'.packageName
  generics : d.item.generics.typeNames.map unraw = d'.item.generics.typeNames.map unraw
  methods : List.Forall₂ Method.Respells (qualifyingMethods c d.item) (qualifyingMethods c d'.item)

structure Declared.IsWritten (names : List String) (d : Declared) : Prop where
  package : PathOf names d.packageName
  generics : d.item.generics.typeNames ⊆ names
  methods : ∀ m ∈ d.item.methods, m.IsWritten names

theorem Resolver.resolve_other {r : Resolver} {s : Scope} {t : Ty}
    (ht : (Phrase.ty t).outline = .other) : r.resolve s t = .structural := by
  cases t with
  | path | paren => cases ht
  | _ => rfl

namespace Declared.IsWritten

open Resolver

variable {names : List String} {d : Declared} (hd : d.IsWritten names)
include hd

theorem methodScope {m : Method} (hm : m.IsWritten names) : (d.methodScope m).IsWritten names :=
  ⟨hd.package, by
    simpa [Declared.methodScope, Scope.withGenerics] using ⟨hd.generics, hm.1⟩⟩

theorem qualifying {c : Config} : ∀ m ∈ qualifyingMethods c d.item, m.IsWritten names :=
  fun m hm => hd.methods m (List.mem_filter.1 hm).1

theorem missing {c : Config} (h : SpelledOnce names) {r : Resolver} (hr : r.IsWritten names) :
    ∀ n ∈ (qualifyingMethods c d.item).flatMap (d.missingIn r), PathOf names n := fun n hn => by
  obtain ⟨m, hm, hn⟩ := List.mem_flatMap.1 hn
  have hm := hd.qualifying m hm
  exact (h.missing_plain hr (hd.methodScope hm) hm.types_names).1 n hn

end Declared.IsWritten

theorem flatMap_eq_of_forall₂ {α β γ : Type} {R : α → β → Prop} {f : α → List γ} {g : β → List γ}
    {xs : List α} {ys : List β} (h : List.Forall₂ R xs ys)
    (hfg : ∀ x ∈ xs, ∀ y ∈ ys, R x y → f x = g y) : xs.flatMap f = ys.flatMap g := by
  induction h with
  | nil => rfl
  | cons hxy _ ih =>
    rw [List.flatMap_cons, List.flatMap_cons, hfg _ (.head _) _ (.head _) hxy,
      ih fun x hx y hy => hfg x (.tail _ hx) y (.tail _ hy)]

section Respelling

variable {names names' : List String} (h : SpelledOnce names) (h' : SpelledOnce names')
  {r r' : Resolver} (hr : r.IsWritten names) (hr' : r'.IsWritten names')
  (hsame : r.plain = r'.plain)
include h h' hr hr' hsame

theorem resolve_respelled {s s' : Scope} (hs : s.IsWritten names) (hs' : s'.IsWritten names')
    (hscope : s.plain = s'.plain) {t t' : Ty} (ht : t.IsWritten names) (ht' : t'.IsWritten names')
    (hrespells : t.Respells t') : (r.resolve s t).plain = (r'.resolve s' t').plain := by
  have hhead : (Phrase.ty t).outline = (Phrase.ty t').outline := Option.some.inj (hrespells [])
  cases houtline : (Phrase.ty t).outline with
  | path q =>
    obtain ⟨p, hp, hq⟩ := Phrase.outline_eq_path.1 houtline
    obtain ⟨p', hp', hq'⟩ := Phrase.outline_eq_path.1 (hhead ▸ houtline)
    cases hp
    cases hp'
    have hnames : p.names ⊆ names := ht p (by simp [Ty.paths])
    have hnames' : p'.names ⊆ names' := ht' p' (by simp [Ty.paths])
    rw [Resolver.resolve, Resolver.resolve, ← h.resolveTypePath_plain hr hs hnames,
      ← h'.resolveTypePath_plain hr' hs' hnames', hq, hq', hsame, hscope]
  | paren =>
    obtain ⟨e, rfl⟩ := Ty.outline_eq_paren.1 houtline
    obtain ⟨e', rfl⟩ := Ty.outline_eq_paren.1 (hhead ▸ houtline)
    rw [Resolver.resolve, Resolver.resolve]
    exact resolve_respelled hs hs' hscope (fun p hp => ht p (by rwa [Ty.paths]))
      (fun p hp => ht' p (by rwa [Ty.paths])) fun a => hrespells (0 :: a)
  | other =>
    rw [Resolver.resolve_other houtline, Resolver.resolve_other (hhead ▸ houtline)]
termination_by sizeOf t

/-- Respelled paths have the same missing names up to spelling. -/
theorem missing_respelled {s s' : Scope} (hs : s.IsWritten names) (hs' : s'.IsWritten names')
    (hscope : s.plain = s'.plain) {ps ps' : List Path} (hps : ∀ p ∈ ps, p.names ⊆ names)
    (hps' : ∀ p ∈ ps', p.names ⊆ names') (hpaths : ps.map Path.outline = ps'.map Path.outline) :
    (ps.filterMap (r.unresolvedPath? s)).map plainPath =
      (ps'.filterMap (r'.unresolvedPath? s')).map plainPath := by
  rw [(h.missing_plain hr hs hps).2, (h'.missing_plain hr' hs' hps').2, hpaths, hsame, hscope]

theorem unresolvedNames_respelled {s s' : Scope} (hs : s.IsWritten names)
    (hs' : s'.IsWritten names') (hscope : s.plain = s'.plain) {t t' : Ty} (ht : t.IsWritten names)
    (ht' : t'.IsWritten names') (hrespells : t.Respells t') :
    (r.unresolvedNames s t).map plainPath = (r'.unresolvedNames s' t').map plainPath := by
  rw [Resolver.unresolvedNames, Resolver.unresolvedNames,
    h.addNew_plain (h.missing_plain hr hs ht).1, h'.addNew_plain (h'.missing_plain hr' hs' ht').1,
    missing_respelled h h' hr hr' hsame hs hs' hscope ht ht' hrespells.paths]

theorem missingIn_respelled {d d' : Declared} (hd : d.IsWritten names) (hd' : d'.IsWritten names')
    (hpackage : plainPath d.packageName = plainPath d'.packageName)
    (hgenerics : d.item.generics.typeNames.map unraw = d'.item.generics.typeNames.map unraw)
    {m m' : Method} (hm : m.IsWritten names) (hm' : m'.IsWritten names')
    (hrespells : m.Respells m') :
    (d.missingIn r m).map plainPath = (d'.missingIn r' m').map plainPath := by
  have hscope : (d.methodScope m).plain = (d'.methodScope m').plain := by
    simp [Declared.methodScope, Scope.withGenerics, Scope.plain, hpackage, hgenerics,
      hrespells.generics]
  refine missing_respelled h h' hr hr' hsame (hd.methodScope hm) (hd'.methodScope hm') hscope
    hm.types_names hm'.types_names ?_
  rw [List.map_flatMap, List.map_flatMap]
  exact flatMap_eq_of_forall₂ hrespells.types fun t _ t' _ ht => ht.paths

/-- Respelled services wait for the same names up to spelling. -/
theorem unresolvedIn_respelled (c : Config) {d d' : Declared} (hd : d.IsWritten names)
    (hd' : d'.IsWritten names') (hrespells : d.Respells c d') :
    (unresolvedIn c r d).map plainPath = (unresolvedIn c r' d').map plainPath := by
  rw [unresolvedIn_eq, unresolvedIn_eq, h.addNew_plain (hd.missing h hr),
    h'.addNew_plain (hd'.missing h' hr'), List.map_flatMap, List.map_flatMap]
  exact congrArg _ <| flatMap_eq_of_forall₂ hrespells.methods fun m hm m' hm' =>
    missingIn_respelled h h' hr hr' hsame hd hd' hrespells.package hrespells.generics
      (hd.qualifying m hm) (hd'.qualifying m' hm')

end Respelling

/-- A path that the program declares is found in the spelling of the program only. -/
theorem found_iff_same_spelling {names : List String} (h : SpelledOnce names) {r : Resolver}
    (hr : r.IsWritten names) {place place' : List String} (hplace : ∀ n ∈ place, NoColon n)
    (hdeclared : placePath place ∈ r.declared) (hsame : place'.map unraw = place.map unraw)
    (hne : place' ≠ []) (arguments : List Ty) :
    (r.resolvePath (placePath place') arguments).isResolved ↔ place' = place := by
  have hplace' : ∀ n ∈ place', NoColon n := fun n hn => noColon_of_unraw <| by
    obtain ⟨n', hn', heq⟩ := List.mem_map.1 (hsame ▸ List.mem_map_of_mem hn)
    exact heq ▸ unraw_noColon (hplace n' hn')
  have hwritten : ∀ {place : List String}, (∀ n ∈ place, NoColon n) →
      PathOf names (placePath place) → place ⊆ names := fun hplace hpath n hn =>
    hpath n (splitPath_placePath hplace ▸ .tail _ hn)
  have hnames := hwritten hplace (hr.declared _ hdeclared)
  constructor
  · intro hfound
    -- a path with a name that is not in the vocabulary is neither declared nor imported
    refine Classical.byContradiction fun hdiffers => ?_
    have hother : ¬ place' ⊆ names := fun hnames' =>
      hdiffers (h.names_inj hnames' hnames hsame)
    obtain ⟨front, name, rfl⟩ := (List.eq_nil_or_concat' place').resolve_left hne
    obtain ⟨hfront, hname⟩ := List.forall_mem_append.1 hplace'
    rw [Resolver.resolvePath_unknown hfront (hname name (.head _))
      (fun hmem => hother (hwritten hplace' (hr.declared _ hmem))) ?_ arguments] at hfound
    · cases hfound
    · refine Option.eq_none_iff_forall_ne_some.2 fun target htarget => ?_
      obtain ⟨hparent, hmem, -⟩ := hr.renamed? htarget
      exact hother (List.append_subset.2 ⟨hwritten hfront hparent, by simpa using hmem⟩)
  · rintro rfl
    rw [Resolver.resolvePath, if_pos (isInternal_placePath _), Resolver.resolveInternal,
      Resolver.isDeclared, if_pos (List.contains_iff_mem.2 hdeclared)]
    rfl

/-- **Spelling.** Let each identifier be spelled in one way throughout a program, and in one way
throughout another spelling of it. Then every type of the program resolves as the type in the other
spelling does, and has the same missing names, up to spelling, so that a service waits for the same
names. But a path that the program declares is not found in any other spelling of it. -/
theorem respelling_irrelevant {names names' : List String} {u u' : Universe}
    (h : SpelledOnce names) (h' : SpelledOnce names') (hu : u.IsWritten names)
    (hu' : u'.IsWritten names') (hsame : u.outline = u'.outline) :
    let r := Resolver.ofUniverse u
    let r' := Resolver.ofUniverse u'
    (∀ s s' t t', s.IsWritten names → s'.IsWritten names' → s.plain = s'.plain →
      t.IsWritten names → t'.IsWritten names' → t.Respells t' →
        (r.resolve s t).plain = (r'.resolve s' t').plain ∧
        (r.unresolvedNames s t).map plainPath = (r'.unresolvedNames s' t').map plainPath) ∧
    (∀ c d d', d.IsWritten names → d'.IsWritten names' → d.Respells c d' →
      (unresolvedIn c r d).map plainPath = (unresolvedIn c r' d').map plainPath) ∧
    (∀ s p place place', (∀ n ∈ place, NoColon n) → place ≠ [] →
      placePath place ∈ u.declared → place'.map unraw = place.map unraw →
      p.IsRelative s ("crate" :: place') →
        ((r.resolve s (.path p)).isResolved ↔ place' = place)) := by
  intro r r'
  obtain ⟨hr, hplain⟩ := h.ofUniverse_plain hu
  obtain ⟨hr', hplain'⟩ := h'.ofUniverse_plain hu'
  have hplain : r.plain = r'.plain := by rw [← hplain, ← hplain', hsame]
  refine ⟨fun s s' t t' hs hs' hscope ht ht' ht'' =>
    ⟨resolve_respelled h h' hr hr' hplain hs hs' hscope ht ht' ht'',
      unresolvedNames_respelled h h' hr hr' hplain hs hs' hscope ht ht' ht''⟩,
    fun c d d' hd hd' hrespells => unresolvedIn_respelled h h' hr hr' hplain c hd hd' hrespells, ?_⟩
  intro s p place place' hplace hne hdeclared hplaces hp
  have hne' : place' ≠ [] := fun hnil => hne (by simpa [hnil] using hplaces.symm)
  have hdeclared : placePath place ∈ r.declared := by
    rwa [show r = (Resolver.withoutUses u).addUses u.uses from rfl, Resolver.addUses_declared]
  rw [Resolver.resolve_anchor r (a := .crate) hne' hp]
  exact found_iff_same_spelling h hr hplace hdeclared hplaces hne' _

/-- A type and an import of it, in a spelling of its name. -/
def itemSpelled (name : String) : Universe :=
  ⟨[.ofItems "models.rs" [.declaration .struct name],
    .ofItems "api.rs" [.use (.path "crate" (.path "models" (.name name)))]], []⟩

/-- A type that is spelled raw everywhere is found as if it were spelled plain everywhere, but not
in the other spelling. -/
theorem item_found_raw :
    let r := Resolver.ofUniverse (itemSpelled "Item")
    let r' := Resolver.ofUniverse (itemSpelled "r#Item")
    let s : Scope := ⟨"crate::api", []⟩
    (r.resolve s (.named "Item")).plain = (r'.resolve s (.named "r#Item")).plain ∧
      (r.resolve s (.named "Item")).plain = .nominal "crate::models::Item" [] ∧
      ¬ (r.resolve s (.path (.ofNames ["crate", "models", "r#Item"]))).isResolved := by
  intro r r' s
  have hsame : (itemSpelled "Item").outline = (itemSpelled "r#Item").outline := by
    have hraw : unraw "r#Item" = unraw "Item" := by decide
    simp [itemSpelled, SourceFile.ofItems, Universe.outline, outlines, Item.outline, UseTree.plain,
      hraw]
  obtain ⟨htypes, -, hpaths⟩ := respelling_irrelevant
    (by decide +kernel : SpelledOnce ["crate", "models", "api", "Item"])
    (by decide +kernel : SpelledOnce ["crate", "models", "api", "r#Item"])
    (by decide +kernel) (by decide +kernel) hsame
  have hrespells : (Ty.named "Item").Respells (.named "r#Item") := fun a => by cases a <;> rfl
  obtain ⟨hresolve, -⟩ := htypes s s _ _ (by decide +kernel) (by decide +kernel) rfl
    (by decide +kernel) (by decide +kernel) hrespells
  have hfound : (r.resolve s (.named "Item")).plain = .nominal "crate::models::Item" [] :=
    Resolution.eq_nominal (by decide +kernel) (by decide +kernel)
  have hpath := hpaths s (.ofNames ["crate", "models", "r#Item"]) ["models", "Item"]
    ["models", "r#Item"] (by decide) (by decide) (by decide +kernel) (by decide)
    ⟨rfl, rfl, by decide⟩
  exact ⟨hresolve, hfound, fun hresolved => absurd (hpath.1 hresolved) (by decide)⟩

/-- Modules and types that are declared in one spelling and named in another. -/
def rawModules : Universe :=
  ⟨[.ofItems "lib.rs" [.module "r#type" none],
    .ofItems "type.rs" [.declaration .struct "Item"],
    .ofItems "models.rs" [.declaration .struct "Item"]], []⟩

/-- A path is not found if a name is spelled raw where the program, or the name of a file, has it
plain. So what is in the file of a module with a raw name is never found. -/
theorem raw_name_unknown :
    let r := Resolver.ofUniverse rawModules
    let s : Scope := ⟨"crate::api", []⟩
    r.resolve s (.path (.ofNames ["crate", "models", "Item"])) = .nominal "crate::models::Item" [] ∧
      r.unresolvedPath? s (.ofNames ["crate", "models", "r#Item"]) =
        some "crate::models::r#Item" ∧
      r.unresolvedPath? s (.ofNames ["crate", "r#type", "Item"]) = some "crate::r#type::Item" := by
  intro r s
  exact ⟨Resolution.eq_nominal (by decide +kernel) (by decide +kernel), by decide +kernel,
    by decide +kernel⟩

end WrapperGen
