import WrapperGen.Proofs.Files.Relative
import WrapperGen.Proofs.Files.Walks
/-!
# Sources that patterns leave out

Where no ignore rules apply, the sources that are found in a directory are the files of its tree
that no pattern leaves out, by their names (`Holds.findSources`). A pattern is matched with the path
below the root, but also with the whole path. So the same sources are found in the same tree at two
places exactly when the whole paths make no difference (`findSources_relative_iff`).
-/

namespace WrapperGen.Files.FileSystem

open FilePath

variable {fs fs' : FileSystem} {root root' : FilePath} {here here' : Place}
  {tree : List (List String)} {exclude : List String} {patterns : List Glob} {names : List String}

/-! ## Without ignore rules -/

/-- A path leads to a directory with the files that the names lead to, and no ignore rules apply to
what is in it. -/
structure Holds (fs : FileSystem) (root : FilePath) (here : Place) (tree : List (List String)) :
    Prop where
  place : fs.place root = .ok here
  directory : fs.node? here = some .directory
  files : ((fs.filesBelow here).map (·.1)).Perm tree
  unruled : ∀ d, IsAround d here → ∀ names ∈ ignoreFiles, fs.rulesAt d names = []

theorem Holds.text_ne (h : fs.Holds root here tree) : root.text ≠ "" := by
  simpa using (placeOf_ok h.place).1

theorem Holds.of_no_ignoreFiles (hplace : fs.place root = .ok here)
    (hdirectory : fs.node? here = some .directory)
    (hfiles : ((fs.filesBelow here).map (·.1)).Perm tree)
    (hnone : ∀ names ∈ ignoreFiles, ∀ e ∈ fs.entries, ¬ names <:+ e.1) :
    fs.Holds root here tree := by
  refine ⟨hplace, hdirectory, hfiles, fun d _ names hnames => ?_⟩
  have hne : d ++ names ≠ [] := fun hnil => by
    rw [(List.append_eq_nil_iff.1 hnil).2] at hnames
    exact absurd hnames (by decide)
  unfold rulesAt
  split
  · rename_i s hnode
    exact absurd (List.suffix_append d names)
      (hnone names hnames _ (mem_entries_of_node? hnode hne))
  · rfl

theorem upToRepository_subset (fs : FileSystem) (ds : List Place) : fs.upToRepository ds ⊆ ds := by
  induction ds with
  | nil => exact List.Subset.refl _
  | cons d ds ih =>
    rw [upToRepository]
    split
    · exact List.cons_subset_cons d (List.nil_subset ds)
    · exact List.cons_subset_cons d ih

theorem verdictOf_of_no_rules {ds : List Place} (h : ∀ d ∈ ds, fs.rulesAt d names = [])
    (isDirectory : Bool) (p : Place) : fs.verdictOf names isDirectory p ds = none := by
  rw [verdictOf, List.findSome?_eq_none_iff]
  intro d hd
  rw [h d hd]
  rfl

theorem Holds.isIgnored (h : fs.Holds root here tree) {p : Place} (hp : here <+: p) :
    fs.isIgnored p = false := by
  have haround : ∀ d ∈ placesUpwards p.dropLast, IsAround d here := fun d => isAround_of_above hp
  unfold FileSystem.isIgnored
  dsimp only
  generalize placesUpwards p.dropLast = above at haround ⊢
  have hinside : ∀ d ∈ if above.any fs.isRepository then fs.upToRepository above else [],
      IsAround d here := fun d hd => by
    split at hd
    · exact haround d (upToRepository_subset fs above hd)
    · cases hd
  have hverdict : ∀ {names ds}, names ∈ ignoreFiles → (∀ d ∈ ds, IsAround d here) →
      ∀ isDirectory, fs.verdictOf names isDirectory p ds = none := fun hnames hds isDirectory =>
    verdictOf_of_no_rules (fun d hd => h.unruled d (hds d hd) _ hnames) isDirectory p
  rw [hverdict (by decide : [".ignore"] ∈ ignoreFiles) haround,
    hverdict (by decide : [".gitignore"] ∈ ignoreFiles) hinside,
    hverdict (by decide : [".git", "info", "exclude"] ∈ ignoreFiles) hinside]
  decide

theorem Holds.isHidden (h : fs.Holds root here tree) (names : List String) :
    fs.isHidden here names = false := by
  rw [FileSystem.isHidden, List.any_eq_false]
  intro n _
  rw [h.isIgnored (List.prefix_append here _)]
  exact Bool.false_ne_true

/-- All files of the tree are walked. -/
theorem Holds.walk (h : fs.Holds root here tree) :
    fs.walk root = .ok (((fs.filesBelow here).map (·.1)).map root.below) := by
  have hfilter : ((fs.filesBelow here).map (·.1)).filter (!fs.isHidden here ·) =
      (fs.filesBelow here).map (·.1) :=
    List.filter_eq_self.2 fun names _ => by rw [h.isHidden]; rfl
  simp only [FileSystem.walk, h.place, h.directory, bind, Except.bind, hfilter]
  rfl

/-! ## The sources of a tree -/

/-- Whether the file that the names lead to is listed. -/
def isListed (patterns : List Glob) (root : FilePath) (names : List String) : Bool :=
  isSource (root.below names) && !isExcluded patterns root (root.below names)

/-- Names in the order of their paths. -/
def sortNames (tree : List (List String)) : List (List String) :=
  tree.insertionSort fun a b => AtMost (ofNames a) (ofNames b)

theorem sortPaths_below (htree : ∀ names ∈ tree, LeadsBelow names) :
    sortPaths (tree.map root.below) = (sortNames tree).map root.below := by
  rw [sortPaths_eq, sortNames, List.map_insertionSort _ AtMost]
  intro a ha b hb
  rw [AtMost, AtMost, compare_below (htree a ha) (htree b hb)]

/-- The order in which the files are stored does not count. -/
theorem sortNames_perm {tree' : List (List String)} (htree : ∀ names ∈ tree, LeadsBelow names)
    (h : tree'.Perm tree) : sortNames tree' = sortNames tree := by
  refine List.Perm.eq_of_pairwise (fun a b ha hb hab hba => ?_)
    (List.pairwise_insertionSort _ _) (List.pairwise_insertionSort _ _)
    ((List.perm_insertionSort _ _).trans (h.trans (List.perm_insertionSort _ _).symm))
  rw [sortNames, List.mem_insertionSort] at ha hb
  exact (compare_ofNames_eq (htree a (h.subset ha)) (htree b hb)).1
    (Std.OrientedCmp.isLE_antisymm hab hba)

theorem Holds.findSources (h : fs.Holds root here tree) (htree : ∀ names ∈ tree, LeadsBelow names)
    (hpatterns : exclude.mapM Glob.parse = .ok patterns) :
    fs.findSources root exclude =
      .ok ((sortNames (tree.filter (isListed patterns root))).map root.below) := by
  have hlisted : ∀ names ∈ tree.filter (isListed patterns root), LeadsBelow names :=
    fun names hnames => htree names (List.mem_filter.1 hnames).1
  have hperm := h.files.filter (isListed patterns root)
  rw [← sortNames_perm hlisted hperm,
    ← sortPaths_below fun names hnames => hlisted names (hperm.subset hnames)]
  unfold FileSystem.findSources
  simp only [hpatterns, h.walk, Except.mapError, bind, Except.bind, pure, Except.pure,
    List.filter_map]
  rfl

/-- The path below the root is matched wherever the tree is, the whole path only where it is. -/
theorem isListed_iff (hroot : root.text ≠ "") (h : LeadsBelow names) :
    isListed patterns root names ↔ isSource (ofNames names) ∧
      (∀ g ∈ patterns, ¬ g.matches? (ofNames names).text) ∧
      ∀ g ∈ patterns, ¬ g.matches? (root.below names).text := by
  rw [isListed, isExcluded, isSource_below h, stripBase?_below hroot h, Option.getD_some]
  simp [forall_and]

/-- A file is listed at both places, or at neither. -/
theorem isListed_congr_iff (hroot : root.text ≠ "") (hroot' : root'.text ≠ "")
    (h : LeadsBelow names) :
    (isListed patterns root names = isListed patterns root' names) ↔
      (isSource (ofNames names) → (∀ g ∈ patterns, ¬ g.matches? (ofNames names).text) →
        ((∃ g ∈ patterns, g.matches? (root.below names).text) ↔
          ∃ g ∈ patterns, g.matches? (root'.below names).text)) := by
  rw [Bool.eq_iff_iff, isListed_iff hroot h, isListed_iff hroot' h, and_congr_right_iff]
  refine imp_congr_right fun _ => ?_
  rw [and_congr_right_iff]
  refine imp_congr_right fun _ => ?_
  rw [← not_iff_not (a := ∃ g ∈ patterns, _)]
  simp

/-- The paths without the root tell which files are listed. -/
theorem stripped_eq_iff (htree : ∀ names ∈ tree, LeadsBelow names) (hroot : root.text ≠ "")
    (hroot' : root'.text ≠ "") {P Q : List String → Bool} :
    ((sortNames (tree.filter P)).map root.below).map (stripBase? root) =
        ((sortNames (tree.filter Q)).map root'.below).map (stripBase? root') ↔
      ∀ names ∈ tree, P names = Q names := by
  have hstrip : ∀ {root : FilePath} {P : List String → Bool}, root.text ≠ "" →
      ((sortNames (tree.filter P)).map root.below).map (stripBase? root) =
        (sortNames (tree.filter P)).map (some ∘ ofNames) := fun hroot => by
    rw [List.map_map, List.map_inj_left]
    intro names hnames
    rw [sortNames, List.mem_insertionSort] at hnames
    exact stripBase?_below hroot (htree names (List.mem_filter.1 hnames).1)
  have hmem : ∀ {P : List String → Bool}, ∀ names ∈ tree,
      some (ofNames names) ∈ (sortNames (tree.filter P)).map (some ∘ ofNames) ↔ P names :=
    fun {P} names hnames => by
      rw [List.mem_map]
      constructor
      · rintro ⟨names', hsorted, hsame⟩
        rw [sortNames, List.mem_insertionSort] at hsorted
        obtain ⟨htree', hP⟩ := List.mem_filter.1 hsorted
        rwa [← (ofNames_inj (htree names' htree') (htree names hnames)).1 (Option.some.inj hsame)]
      · intro hP
        exact ⟨names, (List.mem_insertionSort _).2 (List.mem_filter.2 ⟨hnames, hP⟩), rfl⟩
  rw [hstrip hroot, hstrip hroot']
  constructor
  · intro h names hnames
    rw [Bool.eq_iff_iff, ← hmem names hnames, h, hmem names hnames]
  · intro h
    rw [List.filter_congr h]

/-- **The same sources are found at both places** exactly when whole paths make no difference: a
source whose path below the root no pattern matches is matched by its whole path at both places or
at neither. -/
theorem findSources_relative_iff (htree : ∀ names ∈ tree, LeadsBelow names)
    (h : fs.Holds root here tree) (h' : fs'.Holds root' here' tree)
    (hpatterns : exclude.mapM Glob.parse = .ok patterns) :
    ∃ ps ps', fs.findSources root exclude = .ok ps ∧ fs'.findSources root' exclude = .ok ps' ∧
      (ps.map (stripBase? root) = ps'.map (stripBase? root') ↔
        ∀ names ∈ tree, isSource (ofNames names) →
          (∀ g ∈ patterns, ¬ g.matches? (ofNames names).text) →
            ((∃ g ∈ patterns, g.matches? (root.below names).text) ↔
              ∃ g ∈ patterns, g.matches? (root'.below names).text)) := by
  refine ⟨_, _, h.findSources htree hpatterns, h'.findSources htree hpatterns, ?_⟩
  rw [stripped_eq_iff htree h.text_ne h'.text_ne]
  exact forall₂_congr fun names hnames =>
    isListed_congr_iff h.text_ne h'.text_ne (htree names hnames)

/-- A source and one that was generated. -/
def generatedTree : List (List String) := [["api.rs"], ["gen", "out.rs"]]

def inHome : FileSystem where
  entries := [(["home"], .directory), (["home", "src"], .directory),
    (["home", "src", "api.rs"], .file (.text "")), (["home", "src", "gen"], .directory),
    (["home", "src", "gen", "out.rs"], .file (.text ""))]
  workingDirectory := ["home"]

def atTop : FileSystem where
  entries := [(["src"], .directory), (["src", "gen"], .directory),
    (["src", "gen", "out.rs"], .file (.text "")), (["src", "api.rs"], .file (.text ""))]
  workingDirectory := []

theorem generated_left_out :
    inHome.Holds ⟨"src"⟩ ["home", "src"] generatedTree ∧
      atTop.Holds ⟨"/src/"⟩ ["src"] generatedTree ∧
      ∃ ps ps', inHome.findSources ⟨"src"⟩ ["gen/**"] = .ok ps ∧
        atTop.findSources ⟨"/src/"⟩ ["gen/**"] = .ok ps' ∧
        ps.map (stripBase? ⟨"src"⟩) = ps'.map (stripBase? ⟨"/src/"⟩) := by
  have hhome : inHome.Holds ⟨"src"⟩ ["home", "src"] generatedTree :=
    .of_no_ignoreFiles (by decide +kernel) (by decide) (by decide) (by decide)
  have htop : atTop.Holds ⟨"/src/"⟩ ["src"] generatedTree :=
    .of_no_ignoreFiles (by decide +kernel) (by decide) (by decide) (by decide)
  have hpatterns : ["gen/**"].mapM Glob.parse =
      .ok [⟨[.char 'g', .char 'e', .char 'n', .char '/', .anyDirectories]⟩] := by
    decide +kernel
  obtain ⟨ps, ps', hps, hps', hiff⟩ :=
    findSources_relative_iff (by decide +kernel) hhome htop hpatterns
  exact ⟨hhome, htop, ps, ps', hps, hps', hiff.2 (by decide +kernel)⟩

/-- A source file, and a copy of it below `build`. -/
def twoCopies : FileSystem where
  entries := [(["src"], .directory), (["src", "api.rs"], .file (.text "pub trait A \x7b\x7d")),
    (["build"], .directory), (["build", "src"], .directory),
    (["build", "src", "api.rs"], .file (.text "pub trait A \x7b\x7d"))]
  workingDirectory := []

/-- Below `build`, the pattern leaves out a file that it keeps elsewhere. -/
theorem left_out_by_place :
    twoCopies.Holds ⟨"src"⟩ ["src"] [["api.rs"]] ∧
      twoCopies.Holds ⟨"build/src"⟩ ["build", "src"] [["api.rs"]] ∧
      twoCopies.findSources ⟨"src"⟩ ["build/**"] = .ok [⟨"src/api.rs"⟩] ∧
      twoCopies.findSources ⟨"build/src"⟩ ["build/**"] = .ok [] :=
  ⟨.of_no_ignoreFiles (by decide +kernel) (by decide) (by decide) (by decide),
    .of_no_ignoreFiles (by decide +kernel) (by decide) (by decide) (by decide),
    by decide +kernel, by decide +kernel⟩

end WrapperGen.Files.FileSystem
