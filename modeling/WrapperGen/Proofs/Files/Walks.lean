import WrapperGen.Proofs.Files.Directories
import WrapperGen.Service.Load
/-!
# Sources that are left alone

`load_of_growsBeside`: files that are written beside a source directory do not change what is
loaded from it. For that none of them may be an ignore file, and no directory on the way to the
sources may become a repository (`GrowsBeside`).
-/

namespace WrapperGen

open Files

namespace Files.FileSystem

open FilePath

variable {fs fs' : FileSystem} {root here d : Place} {p : FilePath} {touched : Place → Prop}

/-- The directories whose ignore files count for a directory, and those in it. -/
def IsAround (d root : Place) : Prop := d <+: root ∨ root <+: d

theorem isAround_of_above {p : Place} (hp : root <+: p) (hd : d ∈ placesUpwards p.dropLast) :
    IsAround d root := by
  obtain ⟨n, -, rfl⟩ := List.mem_map.1 hd
  exact List.prefix_or_prefix_of_prefix
    ((List.take_prefix n _).trans (List.dropLast_prefix p)) hp

theorem exists_of_isRepository (h : fs.isRepository d) :
    ∃ e ∈ fs.entries, e.1.getLast? = some ".git" := by
  obtain ⟨n, hn⟩ := Option.isSome_iff_exists.1 h
  rw [node?, if_neg (by simp)] at hn
  obtain ⟨e, he, -⟩ := Option.map_eq_some_iff.1 hn
  have hplace : e.1 = d ++ [".git"] := beq_iff_eq.1 (List.find?_some he :)
  exact ⟨e, List.mem_of_find?_eq_some he, by rw [hplace, List.getLast?_concat]⟩

/-- The names of the files that tell what is ignored. -/
def ignoreFiles : List (List String) := [[".ignore"], [".gitignore"], [".git", "info", "exclude"]]

/-- The files grew where it does not count for the sources in a directory. -/
structure GrowsBeside (root : Place) (touched : Place → Prop) (fs fs' : FileSystem) : Prop where
  grows : Grows touched fs fs'
  outside : ∀ here, touched here → ¬ root <+: here
  /-- No ignore file is written. -/
  ignored : ∀ here, touched here → ∀ names ∈ ignoreFiles, ¬ names <:+ here
  /-- No directory becomes a repository. -/
  repository : ∀ d, IsAround d root → fs'.isRepository d → fs.isRepository d

namespace GrowsBeside

variable (h : GrowsBeside root touched fs fs')

include h

/-! ## Ignored places -/

theorem rulesAt {names : List String} (hnames : names ∈ ignoreFiles) (d : Place) :
    fs'.rulesAt d names = fs.rulesAt d names := by
  have hfile := fun c => h.grows.file (d ++ names) c fun htouched =>
    h.ignored _ htouched names hnames (List.suffix_append _ _)
  unfold FileSystem.rulesAt
  split
  · rename_i s hnode
    rw [(hfile _).1 hnode]
  · rename_i hno
    split
    · rename_i s hnode
      exact absurd ((hfile _).2 hnode) (hno s)
    · rfl

theorem isRepository (hd : IsAround d root) : fs'.isRepository d = fs.isRepository d := by
  refine Bool.eq_iff_iff.2 ⟨h.repository d hd, fun hsome => ?_⟩
  obtain ⟨n, hn⟩ := Option.isSome_iff_exists.1 hsome
  cases n with
  | directory => exact Option.isSome_iff_exists.2 ⟨_, h.grows.directory _ hn⟩
  | file c =>
    obtain ⟨c', hc'⟩ := h.grows.occupied _ c hn
    exact Option.isSome_iff_exists.2 ⟨_, hc'⟩

theorem upToRepository {ds : List Place} (hds : ∀ d ∈ ds, IsAround d root) :
    fs'.upToRepository ds = fs.upToRepository ds := by
  induction ds with
  | nil => rfl
  | cons d ds ih =>
    rw [FileSystem.upToRepository, FileSystem.upToRepository, h.isRepository (hds d (.head _)),
      ih fun d hd => hds d (.tail _ hd)]

theorem verdictOf {names : List String} (hnames : names ∈ ignoreFiles) (isDirectory : Bool)
    (p : Place) (ds : List Place) :
    fs'.verdictOf names isDirectory p ds = fs.verdictOf names isDirectory p ds := by
  unfold FileSystem.verdictOf
  simp only [h.rulesAt hnames]

/-- What is in the directory is ignored as before, if the same is a directory. -/
theorem isIgnored {p : Place} (hp : root <+: p)
    (hdirectory : fs'.node? p = some .directory ↔ fs.node? p = some .directory) :
    fs'.isIgnored p = fs.isIgnored p := by
  have haround : ∀ d ∈ placesUpwards p.dropLast, IsAround d root := fun d => isAround_of_above hp
  have hany : (placesUpwards p.dropLast).any fs'.isRepository =
      (placesUpwards p.dropLast).any fs.isRepository := by
    rw [Bool.eq_iff_iff, List.any_eq_true, List.any_eq_true]
    exact exists_congr fun d => and_congr_right fun hd => by rw [h.isRepository (haround d hd)]
  have hsame : (fs'.node? p == some .directory) = (fs.node? p == some .directory) := by
    rw [Bool.eq_iff_iff, beq_iff_eq, beq_iff_eq, hdirectory]
  have hverdict := fun names (hnames : names ∈ ignoreFiles) => h.verdictOf hnames
  unfold FileSystem.isIgnored
  dsimp only
  rw [hsame, hany, h.upToRepository haround, hverdict [".ignore"] (by decide),
    hverdict [".gitignore"] (by decide), hverdict [".git", "info", "exclude"] (by decide)]

end GrowsBeside

/-! ## Walking -/

theorem mem_filesBelow {names : List String} {c : Content}
    (hmem : (names, c) ∈ fs.filesBelow root) : (root ++ names, .file c) ∈ fs.entries := by
  obtain ⟨⟨p, n⟩, he, hn⟩ := List.mem_filterMap.1 hmem
  cases n with
  | directory => cases hn
  | file c' =>
    dsimp only at hn
    split at hn
    · rename_i hprefix
      obtain ⟨rest, rfl⟩ := List.isPrefixOf_iff_prefix.1 hprefix
      simp only [List.drop_left, Option.some.injEq, Prod.mk.injEq] at hn
      obtain ⟨rfl, rfl⟩ := hn
      exact he
    · cases hn

theorem node?_of_mem_entries {n : Node} (hmem : (here, n) ∈ fs.entries) :
    (fs.node? here).isSome := by
  unfold node?
  split
  · rfl
  · rw [Option.isSome_map, List.find?_isSome]
    exact ⟨_, hmem, by simp⟩

/-- Names that are joined one after the other lead on from a place. -/
theorem lexicalPlace_names (workingDirectory : Place) {names : List String} (p : FilePath)
    (h : ∀ s ∈ names, IsName s.toList) :
    lexicalPlace workingDirectory (names.foldl (fun q n => q.join ⟨n⟩) p) =
      lexicalPlace workingDirectory p ++ names := by
  induction names generalizing p with
  | nil => exact (List.append_nil _).symm
  | cons name names ih =>
    have hname := h name (.head _)
    have hjoin : lexicalPlace workingDirectory (p.join ⟨name⟩) =
        lexicalPlace workingDirectory p ++ [name] := by
      have habsolute : (p.join ⟨name⟩).isAbsolute = p.isAbsolute :=
        Bool.eq_iff_iff.2 (isAbsolute_join_name hname)
      rw [lexicalPlace, components_join_name p hname, List.foldl_append, habsolute]
      rfl
    rw [List.foldl_cons, ih _ fun s hs => h s (.tail _ hs), hjoin, List.append_assoc]
    rfl

section

variable (h : GrowsBeside root touched fs fs') (htree : fs.IsTree)

include h htree

theorem GrowsBeside.isHidden {names : List String} {c : Content}
    (hmem : (names, c) ∈ fs.filesBelow root) :
    fs'.isHidden root names = fs.isHidden root names := by
  have hsome := node?_of_mem_entries (mem_filesBelow hmem)
  obtain ⟨n, hn⟩ := Option.isSome_iff_exists.1 hsome
  have hdirectory : ∀ k, fs'.node? (root ++ names.take k) = some .directory ↔
      fs.node? (root ++ names.take k) = some .directory := fun k => by
    refine ⟨fun hd' => ?_, h.grows.directory _⟩
    by_cases hrest : names.drop k = []
    · -- the file itself
      rw [List.take_of_length_le (List.drop_eq_nil_iff.1 hrest)] at hd' ⊢
      cases n with
      | directory => exact hn
      | file c' =>
        have hfile := (h.grows.file _ c' fun htouched =>
          h.outside _ htouched (List.prefix_append _ _)).2 hn
        rw [hd'] at hfile
        cases hfile
    · rw [← List.take_append_drop k names, ← List.append_assoc] at hn
      exact htree.above hn hrest
  unfold FileSystem.isHidden
  rw [Bool.eq_iff_iff, List.any_eq_true, List.any_eq_true]
  exact exists_congr fun k => and_congr_right fun _ => by
    rw [h.isIgnored (List.prefix_append _ _) (hdirectory (k + 1))]

/-- The same files are found, and none of them was touched. -/
theorem GrowsBeside.walk (hroot : root = lexicalPlace fs.workingDirectory p) {ps : List FilePath}
    (hwalk : fs.walk p = .ok ps) :
    fs'.walk p = .ok ps ∧ ∀ q ∈ ps, ¬ touched (lexicalPlace fs.workingDirectory q) := by
  unfold FileSystem.walk at hwalk ⊢
  cases hplace : fs.place p with
  | error e => simp [hplace, bind, Except.bind] at hwalk
  | ok here =>
    obtain rfl : here = root := (place_eq hplace).trans hroot.symm
    have hbelow : ∀ names : List String, ¬ touched (here ++ names) := fun names htouched =>
      h.outside _ htouched (List.prefix_append _ _)
    have hplace' : fs'.place p = .ok here := placeOf_of_grows h.grows hplace
    simp only [hplace, hplace', bind, Except.bind] at hwalk ⊢
    cases hnode : fs.node? here with
    | none => simp [hnode] at hwalk
    | some n =>
      cases n with
      | file c =>
        simp only [hnode, Except.ok.injEq] at hwalk
        subst hwalk
        rw [(h.grows.file here c (by simpa using hbelow [])).2 hnode]
        refine ⟨rfl, fun q hq => ?_⟩
        rw [List.mem_singleton.1 hq, ← hroot]
        simpa using hbelow []
      | directory =>
        simp only [hnode, Except.ok.injEq] at hwalk
        subst hwalk
        rw [h.grows.directory here hnode, h.grows.filesBelow here h.outside]
        have hhidden : ∀ names ∈ (fs.filesBelow here).map (·.1),
            (!fs'.isHidden here names) = !fs.isHidden here names := fun names hnames => by
          obtain ⟨⟨_, c⟩, hmem, rfl⟩ := List.mem_map.1 hnames
          rw [h.isHidden htree hmem]
        refine ⟨by dsimp only; rw [List.filter_congr hhidden], fun q hq => ?_⟩
        obtain ⟨names, hnames, rfl⟩ := List.mem_map.1 hq
        obtain ⟨⟨_, c⟩, hmem, rfl⟩ := List.mem_map.1 (List.mem_filter.1 hnames).1
        rw [lexicalPlace_names _ p fun s hs => htree.name _ (mem_filesBelow hmem) s
          (List.mem_append_right _ hs), ← hroot]
        exact hbelow _

end

theorem mem_sortPaths {ps : List FilePath} {q : FilePath} : q ∈ sortPaths ps ↔ q ∈ ps := by
  have hinsert : ∀ (p : FilePath) (qs : List FilePath), q ∈ insertPath p qs ↔ q = p ∨ q ∈ qs := by
    intro p qs
    induction qs with
    | nil => simp [insertPath]
    | cons q' qs ih =>
      rw [insertPath]
      split
      · rw [List.mem_cons, ih, List.mem_cons, or_left_comm]
      · rw [List.mem_cons, List.mem_cons]
  induction ps with
  | nil => exact .rfl
  | cons p ps ih =>
    show q ∈ insertPath p (sortPaths ps) ↔ _
    rw [hinsert, List.mem_cons, show q ∈ sortPaths ps ↔ q ∈ ps from ih]

/-- The same sources are found, and none of them was touched. -/
theorem GrowsBeside.findSources {source : FilePath} {exclude : List String}
    (h : GrowsBeside (lexicalPlace fs.workingDirectory source) touched fs fs') (htree : fs.IsTree)
    {ps : List FilePath} (hfound : fs.findSources source exclude = .ok ps) :
    fs'.findSources source exclude = .ok ps ∧
      ∀ p ∈ ps, ¬ touched (lexicalPlace fs.workingDirectory p) := by
  unfold FileSystem.findSources at hfound ⊢
  generalize (exclude.mapM Glob.parse).mapError Failure.pattern = parsed at hfound ⊢
  cases parsed with
  | error e => cases hfound
  | ok patterns =>
    cases hwalk : fs.walk source with
    | error e => simp [hwalk, Except.mapError, bind, Except.bind] at hfound
    | ok files =>
      obtain ⟨hwalk', huntouched⟩ := h.walk htree rfl hwalk
      simp only [hwalk, hwalk', Except.mapError, bind, Except.bind, pure, Except.pure,
        Except.ok.injEq] at hfound ⊢
      refine ⟨hfound, fun p hp => huntouched p ?_⟩
      rw [← hfound, mem_sortPaths] at hp
      exact (List.mem_filter.1 hp).1

end Files.FileSystem

/-! ## Loading -/

theorem foldlM_ok_congr {ε σ α : Type} {f g : σ → α → Except ε σ} {xs : List α} {s t : σ}
    (h : xs.foldlM f s = .ok t) (hg : ∀ a ∈ xs, ∀ s t, f s a = .ok t → g s a = .ok t) :
    xs.foldlM g s = .ok t := by
  induction xs generalizing s with
  | nil => exact h
  | cons a xs ih =>
    rw [List.foldlM_cons] at h ⊢
    cases ha : f s a with
    | error e =>
      rw [ha] at h
      cases h
    | ok next =>
      rw [ha] at h
      rw [hg a (.head _) s next ha]
      exact ih h fun b hb => hg b (.tail _ hb)

/-- Files that grew beside the sources do not change what is loaded. -/
theorem Universe.load_of_growsBeside {fs fs' : FileSystem} {touched : Place → Prop}
    {source : FilePath} {exclude : List String}
    (h : FileSystem.GrowsBeside (lexicalPlace fs.workingDirectory source) touched fs fs')
    (htree : fs.IsTree) {u : Universe} (hload : load fs source exclude = .ok u) :
    load fs' source exclude = .ok u := by
  unfold load at hload ⊢
  cases hfound : fs.findSources source exclude with
  | error e => simp [hfound, bind, Except.bind] at hload
  | ok ps =>
    obtain ⟨hfound', huntouched⟩ := h.findSources htree hfound
    simp only [hfound, hfound', bind, Except.bind] at hload ⊢
    refine foldlM_ok_congr hload fun p hp u u' hu => ?_
    cases hread : fs.readText p with
    | error e => simp [hread, Except.mapError] at hu
    | ok text => rwa [FileSystem.readText_of_grows h.grows (huntouched p hp) hread, ← hread]

end WrapperGen
