import Mathlib.Data.List.TakeWhile
import WrapperGen.Output.Directory
import WrapperGen.Proofs.Files.Parents
import WrapperGen.Proofs.Output.UnitPaths
import WrapperGen.Proofs.Rounds.Reports
import WrapperGen.Proofs.Rounds.Units
import WrapperGen.Proofs.Source.Names
import WrapperGen.Proofs.Types.Tables
/-!
# Below the output directory

The path of a unit is made from the modules around its service, and these from file names.

* `isBeneath_target_iff`: a unit stays below the output directory exactly when none of its modules
  is called `.` or `..`.
* `units_beneath`: so do all units of a universe, unless a file name without `.rs` or a part of a
  name between colons makes such a module.
-/

namespace WrapperGen

open Files Text

/-! ## Texts with separators -/

namespace Text

/-- The parts of a text consist of its characters. -/
theorem mem_of_mem_splitOn {sep acc cs part : List Char} {skip : Nat}
    (h : part ∈ splitOn sep skip acc cs) : ∀ c ∈ part, c ∈ acc ∨ c ∈ cs := by
  fun_induction splitOn sep skip acc cs with
  | case1 _ acc =>
    obtain rfl := List.mem_singleton.1 h
    exact fun c hc => .inl (List.mem_reverse.1 hc)
  | case2 skip acc d r ih => exact fun c hc => (ih h c hc).imp_right (.tail _)
  | case3 acc d r hsep ih =>
    rcases List.mem_cons.1 h with rfl | h
    · exact fun c hc => .inl (List.mem_reverse.1 hc)
    · intro c hc
      rcases ih h c hc with hc | hc
      · cases hc
      · exact .inr (.tail _ hc)
  | case4 acc d r hsep ih =>
    intro c hc
    rcases ih h c hc with hc | hc
    · rcases List.mem_cons.1 hc with rfl | hc
      · exact .inr (.head _)
      · exact .inl hc
    · exact .inr (.tail _ hc)

end Text

/-! ## Names below a directory -/

namespace Files.FilePath

/-- The path is the directory followed by names, the last of which ends in `.rs`. -/
def IsBeneath (root p : FilePath) : Prop :=
  ∃ (names : List String) (stem : String),
    (∀ s ∈ names ++ [stem ++ ".rs"], IsName s.toList) ∧
      p = root.join ((names ++ [stem ++ ".rs"]).foldl (fun q s => q.join ⟨s⟩) ⟨""⟩)

/-- The text is a part between slashes, though maybe no name. -/
structure IsPart (s : String) : Prop where
  nonempty : s ≠ ""
  noSlash : '/' ∉ s.toList

theorem IsName.isPart {s : String} (h : IsName s.toList) : IsPart s :=
  ⟨fun hempty => absurd h.notFiller (by rw [hempty]; decide), h.noSlash⟩

theorem IsPart.isName_iff {s : String} (h : IsPart s) :
    IsName s.toList ↔ s ≠ "." ∧ s ≠ ".." := by
  constructor
  · rintro ⟨-, hfiller, hparent⟩
    exact ⟨fun hdot => absurd hfiller (by rw [hdot]; decide),
      fun hdots => hparent (by rw [hdots]; rfl)⟩
  · rintro ⟨hdot, hdots⟩
    refine ⟨h.noSlash, ?_, fun hparent => hdots (String.toList_inj.1 hparent)⟩
    rw [FileSystem.isFiller_toList, Bool.or_eq_false_iff]
    exact ⟨by simpa using h.nonempty, by simpa using hdot⟩

variable {names : List String}

theorem IsPart.relative {s : String} (h : IsPart s) : ¬ (⟨s⟩ : FilePath).isAbsolute := by
  intro habsolute
  obtain ⟨cs, hcs⟩ := List.head?_eq_some_iff.1 (beq_iff_eq.1 habsolute)
  exact h.noSlash (hcs ▸ .head _)

theorem IsPart.not_endsInSlash {s : String} (h : IsPart s) (text : String) :
    ¬ (⟨text ++ s⟩ : FilePath).endsInSlash := by
  intro hslash
  have hlast := beq_iff_eq.1 hslash
  rw [String.toList_append, List.getLast?_append, Option.or_eq_some_iff] at hlast
  rcases hlast with hlast | ⟨hnone, -⟩
  · exact h.noSlash (List.mem_of_getLast? hlast)
  · exact h.nonempty (String.toList_eq_nil_iff.1 (List.getLast?_eq_none_iff.1 hnone))

theorem foldl_join_text {p : FilePath} (hp : p.text ≠ "") (hslash : ¬ p.endsInSlash)
    (h : ∀ s ∈ names, IsPart s) :
    (names.foldl (fun q s => q.join ⟨s⟩) p).text.toList =
      p.text.toList ++ names.flatMap fun s => '/' :: s.toList := by
  induction names generalizing p with
  | nil => exact (List.append_nil _).symm
  | cons s names ih =>
    have hs := h s (.head _)
    have hjoin : p.join ⟨s⟩ = ⟨p.text ++ "/" ++ s⟩ := by
      simp [join, hs.relative, hp, hslash]
    rw [List.foldl_cons, hjoin, ih (by simp) (hs.not_endsInSlash _) fun t ht => h t (.tail _ ht)]
    simp

theorem joinParts_cons (part : List Char) (parts : List (List Char)) :
    joinParts (part :: parts) = part ++ parts.flatMap fun p => '/' :: p := by
  induction parts generalizing part with
  | nil => simp [joinParts]
  | cons next parts ih =>
    rw [joinParts, List.intercalate_cons_cons, ← joinParts, ih next]
    simp

/-- The text of joined parts has a slash between each two. -/
theorem foldl_join_empty (h : ∀ s ∈ names, IsPart s) :
    (names.foldl (fun q s => q.join ⟨s⟩) (⟨""⟩ : FilePath)).text.toList =
      joinParts (names.map String.toList) := by
  cases names with
  | nil => rfl
  | cons s names =>
    have hs := h s (.head _)
    have hslash := hs.not_endsInSlash ""
    rw [String.empty_append] at hslash
    rw [List.foldl_cons, empty_join, foldl_join_text hs.nonempty hslash fun t ht => h t (.tail _ ht),
      List.map_cons, joinParts_cons, List.flatMap_map]

theorem foldl_join_relative (h : ∀ s ∈ names, IsPart s) :
    ¬ (names.foldl (fun q s => q.join ⟨s⟩) (⟨""⟩ : FilePath)).isAbsolute := by
  intro habsolute
  have hhead := beq_iff_eq.1 habsolute
  rw [foldl_join_empty h] at hhead
  cases names with
  | nil => cases hhead
  | cons s names =>
    have hs := h s (.head _)
    rw [List.map_cons, joinParts_cons, List.head?_append, Option.or_eq_some_iff] at hhead
    rcases hhead with hhead | ⟨hnone, -⟩
    · exact hs.noSlash (List.mem_of_head? hhead)
    · exact hs.nonempty (String.toList_eq_nil_iff.1 (List.head?_eq_none_iff.1 hnone))

/-- Joined parts can be told apart. -/
theorem foldl_join_inj {names' : List String} (h : ∀ s ∈ names, IsPart s)
    (h' : ∀ s ∈ names', IsPart s) (hne : names ≠ []) (hne' : names' ≠ [])
    (heq : names.foldl (fun q s => q.join ⟨s⟩) (⟨""⟩ : FilePath) =
      names'.foldl (fun q s => q.join ⟨s⟩) ⟨""⟩) : names = names' := by
  have htext := congrArg (fun p : FilePath => p.text.toList) heq
  have hparts : ∀ {ns : List String}, ns ≠ [] → (∀ s ∈ ns, IsPart s) →
      partsOf (joinParts (ns.map String.toList)) = ns.map String.toList := fun hns hall =>
    Text.splitOn_intercalate (by simpa using hns) fun part hpart => by
      obtain ⟨s, hs, rfl⟩ := List.mem_map.1 hpart
      exact (hall s hs).noSlash
  rw [foldl_join_empty h, foldl_join_empty h'] at htext
  have hmaps := congrArg partsOf htext
  rw [hparts hne h, hparts hne' h'] at hmaps
  exact (List.map_inj_right fun _ _ => String.toList_inj.1).1 hmaps

theorem join_inj {root p q : FilePath} (hp : ¬ p.isAbsolute) (hq : ¬ q.isAbsolute)
    (h : root.join p = root.join q) : p = q := by
  unfold join at h
  rw [if_neg hp, if_neg hq] at h
  cases p
  cases q
  split at h <;> simpa using h

end Files.FilePath

/-! ## Units -/

/-- The path of a unit below the directory. -/
abbrev UnitText.path (u : UnitText) : FilePath := unitPath u.package u.unit

/-- The parts of a unit's path. -/
def UnitText.steps (u : UnitText) : List String := unitModules u.package ++ [unitFile u.unit]

namespace UnitText

open FilePath

theorem path_eq (u : UnitText) : u.path = u.steps.foldl (fun q s => q.join ⟨s⟩) ⟨""⟩ := by
  rw [steps, List.foldl_append, List.foldl_cons, List.foldl_nil, path, unitPath, unitDirectory]

/-- A module is in the path of a unit if it is a part of the package that has a directory. -/
theorem mem_unitModules {package s : String} :
    s ∈ unitModules package ↔ s ∈ splitPath package ∧ s ≠ "" ∧ s ≠ "crate" := by
  simp [unitModules, List.mem_filter]

theorem isPart_of_mem {package s : String} (hslash : '/' ∉ package.toList)
    (hs : s ∈ unitModules package) : IsPart s := by
  obtain ⟨hsplit, hempty, -⟩ := mem_unitModules.1 hs
  obtain ⟨part, hpart, rfl⟩ := List.mem_map.1 hsplit
  refine ⟨hempty, fun hmem => ?_⟩
  rw [String.toList_ofList] at hmem
  rcases mem_of_mem_splitOn hpart _ hmem with hmem | hmem
  · cases hmem
  · exact hslash hmem

theorem steps_isPart {u : UnitText} (hslash : '/' ∉ u.package.toList) :
    ∀ s ∈ u.steps, IsPart s := by
  intro s hs
  rcases List.mem_append.1 hs with hs | hs
  · exact isPart_of_mem hslash hs
  · rw [List.mem_singleton.1 hs]
    exact (unitFile_isName u.unit).isPart

end UnitText

open FilePath in
/-- A unit stays below the directory when no part of its package leads elsewhere. -/
theorem isBeneath_target_iff (o : DirectoryOutput) (u : UnitText)
    (hslash : '/' ∉ u.package.toList) :
    IsBeneath o.root (o.target u) ↔ ∀ s ∈ splitPath u.package, s ≠ "." ∧ s ≠ ".." := by
  have hsteps := UnitText.steps_isPart hslash
  rw [show o.target u = o.root.join u.path from rfl, u.path_eq]
  constructor
  · rintro ⟨names, stem, hnames, heq⟩ s hs
    have hparts : ∀ t ∈ names ++ [stem ++ ".rs"], IsPart t := fun t ht => (hnames t ht).isPart
    have hsame : u.steps = names ++ [stem ++ ".rs"] :=
      foldl_join_inj hsteps hparts (by simp [UnitText.steps]) (by simp)
        (join_inj (foldl_join_relative hsteps) (foldl_join_relative hparts) heq)
    by_cases hmodule : s ∈ unitModules u.package
    · have hname : IsName s.toList := hnames s (hsame ▸ List.mem_append_left _ hmodule)
      exact hname.isPart.isName_iff.1 hname
    · rw [UnitText.mem_unitModules, not_and, not_and_or, not_not, not_not] at hmodule
      rcases hmodule hs with rfl | rfl <;> decide
  · intro h
    refine ⟨unitModules u.package, snakeCase u.unit, fun s hs => ?_, rfl⟩
    rcases List.mem_append.1 hs with hs | hs
    · exact (UnitText.isPart_of_mem hslash hs).isName_iff.2 (h s (UnitText.mem_unitModules.1 hs).1)
    · rw [List.mem_singleton.1 hs]
      exact unitFile_isName u.unit

/-! ## Modules of sources -/

namespace Source

namespace Lexer

theorem anyIdent?_noColon {s : String} (h : anyIdent? s.toList = some []) : NoColon s :=
  fun hc => absurd ((anyIdent?_chars h).2 _ hc) (by decide)

/-- Identifiers can be directories. -/
theorem anyIdent?_isName {s : String} (h : anyIdent? s.toList = some []) :
    FilePath.IsName s.toList := by
  obtain ⟨hne, hall⟩ := anyIdent?_chars h
  have hdot : '.' ∉ s.toList := fun hc => absurd (hall _ hc) (by decide)
  have hpart : FilePath.IsPart s :=
    ⟨fun hempty => hne (by rw [hempty]; rfl), fun hc => absurd (hall _ hc) (by decide)⟩
  exact hpart.isName_iff.2
    ⟨fun hs => hdot (by rw [hs]; decide), fun hs => hdot (by rw [hs]; decide)⟩

end Lexer

mutual
/-- The names of the modules that stand in an item. -/
def Item.innerNames : Item → List String
  | .module name (some items) => name :: Item.allInnerNames items
  | _ => []
def Item.allInnerNames : List Item → List String
  | [] => []
  | i :: is => Item.innerNames i ++ Item.allInnerNames is
end

end Source

open Source

section

variable {P Q : String → Prop}

mutual
theorem itemBodies_inherit (hchild : ∀ module name, P module → Q name → P (module ++ "::" ++ name))
    {module : String} (hmodule : P module) :
    ∀ {i : Item}, (∀ n ∈ i.innerNames, Q n) → ∀ m ∈ Resolver.itemBodies module i, P m
  | .module name (some items), hnames => by
    rw [Item.innerNames] at hnames
    rw [Resolver.itemBodies]
    have hinner := hchild module name hmodule (hnames name (.head _))
    rintro m (_ | ⟨_, hm⟩)
    · exact hinner
    · exact itemsBodies_inherit hchild hinner (fun n hn => hnames n (.tail _ hn)) m hm
  | .module name none, _ | .use _, _ | .impl _, _ | .declaration _ name, _ | .other, _
  | .trait t, _ => by
    simp [Resolver.itemBodies]
/-- What a module passes on to the modules in it holds of all modules of a file. -/
theorem itemsBodies_inherit
    (hchild : ∀ module name, P module → Q name → P (module ++ "::" ++ name)) {module : String}
    (hmodule : P module) :
    ∀ {is : List Item}, (∀ n ∈ Item.allInnerNames is, Q n) →
      ∀ m ∈ Resolver.itemsBodies module is, P m
  | [], _ => by simp [Resolver.itemsBodies]
  | i :: is, hnames => by
    rw [Item.allInnerNames] at hnames
    rw [Resolver.itemsBodies]
    intro m hm
    rcases List.mem_append.1 hm with hm | hm
    · exact itemBodies_inherit hchild hmodule (fun n hn => hnames n (List.mem_append_left _ hn)) m hm
    · exact itemsBodies_inherit hchild hmodule (fun n hn => hnames n (List.mem_append_right _ hn))
        m hm
end

end

theorem isName_of_mem_components {p : FilePath} {n : String} (h : .normal n ∈ p.components) :
    FilePath.IsName n.toList := by
  rw [FilePath.components_eq, List.mem_append] at h
  rcases h with h | h
  · exact absurd (FilePath.isLeading_of_leading _ _ h) (by simp [FilePath.isLeading])
  · obtain ⟨part, hpart, heq⟩ := List.mem_map.1 h
    obtain ⟨hsplit, hfiller⟩ := List.mem_filter.1 hpart
    unfold FilePath.partComponent at heq
    split at heq
    · cases heq
    · rename_i hparent
      cases heq
      rw [String.toList_ofList]
      exact ⟨not_mem_of_mem_splitOn List.not_mem_nil hsplit, by simpa using hfiller,
        by simpa using hparent⟩

/-- Only `.rs` at the end of a name is left out. -/
theorem fileStem_cases (name : String) : name = fileStem name ∨ name = fileStem name ++ ".rs" := by
  unfold fileStem
  split
  · rename_i hend
    rw [← String.endsWith_toSlice, String.Slice.endsWith_string_iff, String.copy_toSlice] at hend
    obtain ⟨cs, hcs⟩ := hend
    refine .inr ?_
    rw [← String.length_toList, ← hcs, ← String.toList_inj, String.toList_append,
      String.toList_ofList]
    simp [← hcs]
  · exact .inl rfl

/-- What the module of a file is made of. -/
theorem modulePath_parts (path : FilePath) : ∃ parts : List String,
    modulePath path = "::".intercalate ("crate" :: parts) ∧
      ∀ s ∈ parts, ∃ n, .normal n ∈ path.components ∧ (s = n ∨ s = fileStem n) := by
  have hnames : ∀ n ∈ path.components.filterMap (·.name?), .normal n ∈ path.components := by
    intro n hn
    obtain ⟨c, hc, hname⟩ := List.mem_filterMap.1 hn
    cases c with
    | normal name => cases hname; exact hc
    | root | current | parent => cases hname
  unfold modulePath
  generalize path.components.filterMap (·.name?) = names at hnames
  refine ⟨_, rfl, fun s hs => ?_⟩
  rcases List.mem_append.1 hs with hs | hs
  · exact ⟨s, hnames s (List.dropLast_subset _ hs), .inl rfl⟩
  · split at hs
    · cases hs
    · rename_i last hlast
      dsimp only at hs
      split at hs
      · cases hs
      · rw [List.mem_singleton.1 hs]
        exact ⟨last, hnames last (List.mem_of_getLast? hlast), .inr rfl⟩

/-- No name on the path of a source file makes a module that leads elsewhere. -/
def HasPlainNames (path : FilePath) : Prop :=
  ∀ n, .normal n ∈ path.components → NoColon n ∧ n ≠ "..rs" ∧ n ≠ "...rs"

/-- A file as it was read: its module follows from a path, and the modules in it are called by
identifiers. -/
structure SourceFile.IsRead (f : SourceFile) : Prop where
  module : ∃ path, f.module = modulePath path
  inner : ∀ n ∈ Item.allInnerNames f.content.items, Lexer.anyIdent? n.toList = some []

theorem modulePath_noSlash (path : FilePath) : '/' ∉ (modulePath path).toList := by
  obtain ⟨parts, hmodule, hparts⟩ := modulePath_parts path
  rw [hmodule, String.toList_intercalate]
  refine not_mem_intercalate (by decide) fun part hpart => ?_
  obtain ⟨s, hs, rfl⟩ := List.mem_map.1 hpart
  rcases List.mem_cons.1 hs with rfl | hs
  · decide
  · obtain ⟨n, hn, hstem⟩ := hparts s hs
    have hname := (isName_of_mem_components hn).noSlash
    rcases hstem with rfl | rfl
    · exact hname
    · rcases fileStem_cases n with hn' | hn'
      · rwa [← hn']
      · rw [hn', String.toList_append, List.mem_append, not_or] at hname
        exact hname.1

/-- The module is a list of names that lead nowhere else. -/
def IsPlainModule (module : String) : Prop :=
  ∃ parts : List String, parts ≠ [] ∧ module = "::".intercalate parts ∧
    ∀ s ∈ parts, NoColon s ∧ s ≠ "." ∧ s ≠ ".."

theorem IsPlainModule.splitPath {module : String} (h : IsPlainModule module) :
    ∀ s ∈ splitPath module, s ≠ "." ∧ s ≠ ".." := by
  obtain ⟨parts, hne, rfl, hparts⟩ := h
  rw [splitPath_intercalate hne fun s hs => (hparts s hs).1]
  exact fun s hs => (hparts s hs).2

theorem IsPlainModule.child {module name : String} (h : IsPlainModule module)
    (hname : Lexer.anyIdent? name.toList = some []) : IsPlainModule (module ++ "::" ++ name) := by
  obtain ⟨parts, hne, rfl, hparts⟩ := h
  refine ⟨parts ++ [name], by simp, ?_, fun s hs => ?_⟩
  · rw [String.intercalate_append_of_ne_nil hne (List.cons_ne_nil _ _),
      String.intercalate_singleton]
  · rcases List.mem_append.1 hs with hs | hs
    · exact hparts s hs
    · rw [List.mem_singleton.1 hs]
      have hisName := Lexer.anyIdent?_isName hname
      exact ⟨Lexer.anyIdent?_noColon hname, hisName.isPart.isName_iff.1 hisName⟩

theorem HasPlainNames.isPlainModule {path : FilePath} (h : HasPlainNames path) :
    IsPlainModule (modulePath path) := by
  obtain ⟨parts, hmodule, hparts⟩ := modulePath_parts path
  refine ⟨"crate" :: parts, List.cons_ne_nil _ _, hmodule, fun s hs => ?_⟩
  rcases List.mem_cons.1 hs with rfl | hs
  · decide
  · obtain ⟨n, hn, hstem⟩ := hparts s hs
    obtain ⟨hcolon, hdot, hdots⟩ := h n hn
    have hname := isName_of_mem_components hn
    have hwhole : NoColon n ∧ n ≠ "." ∧ n ≠ ".." := ⟨hcolon, hname.isPart.isName_iff.1 hname⟩
    rcases hstem with rfl | rfl
    · exact hwhole
    · rcases fileStem_cases n with hn' | hn'
      · rwa [← hn']
      · refine ⟨fun hc => hcolon ?_, fun hs => hdot ?_, fun hs => hdots ?_⟩
        · rw [hn', String.toList_append]
          exact List.mem_append_left _ hc
        · rw [hn', hs]
          rfl
        · rw [hn', hs]
          rfl

/-- **Units stay below the output directory**, that is, at names below it, exactly when no part of
their package is `.` or `..`. Unless a name of a source file holds a colon, or the file is called
`..rs` or `...rs`, there is no such part. -/
theorem units_beneath (u : Universe) (hu : ∀ f ∈ u.files, f.IsRead) (c : Config)
    (o : DirectoryOutput) :
    (∀ d ∈ scan u c.marker, ∀ unit, unitOf c (.ofUniverse u) d = .ok unit →
      (FilePath.IsBeneath o.root (o.target unit.toText) ↔
        ∀ s ∈ splitPath d.packageName, s ≠ "." ∧ s ≠ "..")) ∧
    ((∀ f ∈ u.files, ∃ path, f.module = modulePath path ∧ HasPlainNames path) →
      ∀ d ∈ scan u c.marker, ∀ unit, unitOf c (.ofUniverse u) d = .ok unit →
        FilePath.IsBeneath o.root (o.target unit.toText)) := by
  have hscan : ∀ {P : String → Prop}, (∀ f ∈ u.files, P f.module) →
      (∀ module name, P module → Lexer.anyIdent? name.toList = some [] →
        P (module ++ "::" ++ name)) →
      ∀ d ∈ scan u c.marker, P d.packageName := by
    intro P hfiles hchild d hd
    obtain ⟨f, hf, hd⟩ := List.mem_flatMap.1 hd
    rcases List.mem_cons.1 (scanItems_body hd).1 with hpackage | hpackage
    · exact hpackage ▸ hfiles f hf
    · exact itemsBodies_inherit hchild (hfiles f hf) (hu f hf).inner _ hpackage
  have hslash : ∀ d ∈ scan u c.marker, '/' ∉ d.packageName.toList :=
    hscan (P := fun m => '/' ∉ m.toList)
      (fun f hf => by
        obtain ⟨path, hmodule⟩ := (hu f hf).module
        exact hmodule ▸ modulePath_noSlash path)
      fun module name hmodule hname => by
        have hcolons : '/' ∉ "::".toList := by decide
        rw [String.toList_append, String.toList_append, List.mem_append, List.mem_append, not_or,
          not_or]
        exact ⟨⟨hmodule, hcolons⟩, (Lexer.anyIdent?_isName hname).noSlash⟩
  have hiff : ∀ d ∈ scan u c.marker, ∀ unit, unitOf c (.ofUniverse u) d = .ok unit →
      (FilePath.IsBeneath o.root (o.target unit.toText) ↔
        ∀ s ∈ splitPath d.packageName, s ≠ "." ∧ s ≠ "..") := by
    intro d hd unit hunit
    have hpackage : unit.toText.package = d.packageName := (unitOf_ok hunit).packageName
    rw [isBeneath_target_iff o unit.toText (by rw [hpackage]; exact hslash d hd), hpackage]
  refine ⟨hiff, fun hplain d hd unit hunit => (hiff d hd unit hunit).2 ?_⟩
  refine (hscan (P := IsPlainModule) (fun f hf => ?_) (fun m n => .child) d hd).splitPath
  obtain ⟨path, hmodule, hpath⟩ := hplain f hf
  exact hmodule ▸ hpath.isPlainModule

/-- A service in a module of a file in a directory. -/
def nested : Universe :=
  let service := markedTrait "Api" ["Send", "Sync"] []
  ⟨[⟨⟨"a/b.rs"⟩, modulePath ⟨"a/b.rs"⟩, ⟨[.module "inner" (some [.trait service])]⟩⟩], []⟩

theorem nested_beneath :
    (scan nested "remote_service").map (·.packageName) = ["crate::a::b::inner"] ∧
      ∀ d ∈ scan nested "remote_service", ∀ unit,
        unitOf .default (.ofUniverse nested) d = .ok unit →
          FilePath.IsBeneath ⟨"out"⟩ ((DirectoryOutput.start (.empty []) ⟨"out"⟩ false).target
            unit.toText) := by
  refine ⟨by decide +kernel, (units_beneath nested ?_ .default _).2 ?_⟩
  · intro f hf
    obtain rfl := List.mem_singleton.1 hf
    exact ⟨⟨_, rfl⟩, by decide +kernel⟩
  · intro f hf
    obtain rfl := List.mem_singleton.1 hf
    refine ⟨_, rfl, fun n hn => ?_⟩
    have hcomponents : FilePath.components ⟨"a/b.rs"⟩ = [.normal "a", .normal "b.rs"] := by
      decide +kernel
    rw [hcomponents] at hn
    have hnames : n = "a" ∨ n = "b.rs" := by simpa using hn
    rcases hnames with rfl | rfl <;> decide

/-- A service in a file whose name without `.rs` is `..`. -/
def dotted : Universe :=
  ⟨[⟨⟨"...rs"⟩, modulePath ⟨"...rs"⟩, ⟨[.trait (markedTrait "Api" ["Send", "Sync"] [])]⟩⟩], []⟩

/-- The unit of this service is written beside the output directory. -/
theorem dotted_escapes :
    Config.default.problems = [] ∧ ∃ d ∈ scan dotted "remote_service", ∃ unit,
      unitOf .default (.ofUniverse dotted) d = .ok unit ∧
        (DirectoryOutput.start (.empty []) ⟨"out"⟩ false).target unit.toText =
          ⟨"out/../api_dsl_extensions.rs"⟩ ∧
        ¬ FilePath.IsBeneath ⟨"out"⟩ ((DirectoryOutput.start (.empty []) ⟨"out"⟩ false).target
          unit.toText) := by
  have hunit : ((scan dotted "remote_service").head?.bind fun d =>
      (unitOf .default (.ofUniverse dotted) d).toOption.map fun unit =>
        (unit.packageName, unit.unitName)) = some ("crate::..", "ApiDslExtensions") := by
    decide +kernel
  obtain ⟨d, hd, hmade⟩ := Option.bind_eq_some_iff.1 hunit
  obtain ⟨unit, hmade, hnames⟩ := Option.map_eq_some_iff.1 hmade
  obtain ⟨hpackage, hname⟩ := Prod.mk.inj hnames
  refine ⟨Config.default_problems, d, List.mem_of_head? hd, unit, toOption_eq_some.1 hmade, ?_, ?_⟩
  · have hpath : unitPath "crate::.." "ApiDslExtensions" = ⟨"../api_dsl_extensions.rs"⟩ := by
      decide +kernel
    rw [DirectoryOutput.target, GeneratedUnit.toText, hpackage, hname, hpath]
    decide
  · have hslash : '/' ∉ "crate::..".toList := by decide
    have hsplit : ".." ∈ splitPath "crate::.." := by decide
    have htext : unit.toText.package = "crate::.." := hpackage
    intro hbeneath
    have hparts := (isBeneath_target_iff (.start (.empty []) ⟨"out"⟩ false) unit.toText
      (htext ▸ hslash)).1 hbeneath
    exact (hparts ".." (htext ▸ hsplit)).2 rfl

end WrapperGen
