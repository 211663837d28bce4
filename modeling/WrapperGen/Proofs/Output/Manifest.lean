import Mathlib.Data.List.Find
import Mathlib.Data.Set.Function
import WrapperGen.Proofs.Output.Beneath
import WrapperGen.Proofs.Output.Kept
/-!
# What the manifest says

Units are written into a directory one after the other. Some writes fail, and files elsewhere may
change at any time (`Happens`). Whatever happens, the manifest has one entry for every path that a
unit was written to, sorted by path, and each entry tells of the unit that was written there last
and of the content of its file (`Tells`, `manifest_tells`).

A unit is known to be up to date by its digest, so this holds where no two texts that are compared
have the same digest.
-/

namespace WrapperGen

open Files Text

/-! ## Places of units -/

namespace Files

open FilePath

/-- A path that a relative one was joined to stays where it starts. -/
theorem FilePath.isAbsolute_join {p q : FilePath} (hq : ¬ q.isAbsolute) :
    (p.join q).isAbsolute ↔ p.isAbsolute := by
  by_cases hp : p.text = ""
  · obtain rfl : p = ⟨""⟩ := by cases p; exact congrArg _ hp
    rw [empty_join]
    exact ⟨fun h => absurd h hq, fun h => absurd h (by decide)⟩
  · rw [isAbsolute_iff, isAbsolute_iff, leading_join hp hq]

theorem foldl_enter_names (here : Place) (names : List String) :
    (names.map Component.normal).foldl Component.enter here = here ++ names := by
  induction names generalizing here with
  | nil => exact (List.append_nil here).symm
  | cons s names ih =>
    rw [List.map_cons, List.foldl_cons, ih]
    exact List.append_cons here s names |>.symm

/-- Names below a path lead on from its place. -/
theorem lexicalPlace_join_names (workingDirectory : Place) (root : FilePath) {names : List String}
    (h : ∀ s ∈ names, IsName s.toList) :
    lexicalPlace workingDirectory (root.join (names.foldl (fun q s => q.join ⟨s⟩) ⟨""⟩)) =
      lexicalPlace workingDirectory root ++ names := by
  have hrelative := foldl_join_relative fun s hs => (h s hs).isPart
  have habsolute : (root.join (names.foldl (fun q s => q.join ⟨s⟩) ⟨""⟩)).isAbsolute =
      root.isAbsolute := Bool.eq_iff_iff.2 (isAbsolute_join hrelative)
  rw [lexicalPlace, components_join_names root h, List.foldl_append, habsolute,
    foldl_enter_names]
  rfl

end Files

/-- The modules of the unit can be directories. -/
def UnitText.IsPlaced (u : UnitText) : Prop :=
  ∀ s ∈ unitModules u.package, FilePath.IsName s.toList

namespace UnitText

variable {u v : UnitText}

theorem IsPlaced.steps (h : u.IsPlaced) : ∀ s ∈ u.steps, FilePath.IsName s.toList := by
  intro s hs
  rcases List.mem_append.1 hs with hs | hs
  · exact h s hs
  · rw [List.mem_singleton.1 hs]
    exact unitFile_isName u.unit

theorem IsPlaced.same_path (hu : u.IsPlaced) (hv : v.IsPlaced) :
    u.path.same v.path ↔ u.steps = v.steps := by
  have hcomponents := fun {w : UnitText} (hw : w.IsPlaced) =>
    FilePath.components_join_names ⟨""⟩ hw.steps
  rw [FilePath.same_iff, path_eq, path_eq, ← FilePath.empty_join (u.steps.foldl _ _),
    ← FilePath.empty_join (v.steps.foldl _ _), hcomponents hu, hcomponents hv,
    List.append_right_inj]
  exact List.map_inj_right fun _ _ => Component.normal.inj

/-- The place of a unit's file. -/
theorem IsPlaced.place (hu : u.IsPlaced) (workingDirectory : Place) (root : FilePath) :
    lexicalPlace workingDirectory (root.join u.path) =
      lexicalPlace workingDirectory root ++ u.steps := by
  rw [path_eq]
  exact lexicalPlace_join_names workingDirectory root hu.steps

/-- Units share a file only when they share their path. -/
theorem IsPlaced.place_eq (hu : u.IsPlaced) (hv : v.IsPlaced) (workingDirectory : Place)
    (root : FilePath) :
    lexicalPlace workingDirectory (root.join u.path) =
      lexicalPlace workingDirectory (root.join v.path) ↔ u.path.same v.path := by
  rw [hu.place, hv.place, List.append_right_inj, hu.same_path hv]

end UnitText

theorem ManifestEntry.of_path (u : UnitText) : (ManifestEntry.of u).path = u.path := by
  rw [ManifestEntry.of]

/-! ## Entries in order -/

namespace Files.FilePath

theorem Component.compare_eq_compareLex : Component.compare =
    compareLex (compareOn Component.rank) (compareOn fun c => c.name?.getD "") := by
  funext a b
  cases a <;> cases b <;> rfl

instance : Std.TransCmp Component.compare :=
  Component.compare_eq_compareLex ▸ inferInstance

theorem compareComponents_eq_compareLex : compareComponents = List.compareLex Component.compare := by
  funext as bs
  fun_induction compareComponents as bs with
  | case4 a as b bs ih => rw [List.compareLex_cons_cons, ih]
  | _ => rfl

instance compareComponents_trans : Std.TransCmp compareComponents :=
  compareComponents_eq_compareLex ▸ inferInstance

instance : Std.TransCmp FilePath.compare where
  eq_swap := compareComponents_trans.eq_swap
  isLE_trans := compareComponents_trans.isLE_trans

end Files.FilePath

section

variable {α : Type} {p : FilePath} {v : α} {entries : List (FilePath × α)}

/-- The keys grow, so each path has one entry. -/
def SortedByPath (entries : List (FilePath × α)) : Prop :=
  entries.Pairwise fun a b => a.1.compare b.1 = .lt

theorem mem_insertByPath {x : FilePath × α} (hx : x ∈ insertByPath p v entries) :
    (x.1.same p ∧ x.2 = v) ∨ x ∈ entries := by
  induction entries with
  | nil =>
    rw [List.mem_singleton.1 hx]
    exact .inl ⟨FilePath.same_rfl, rfl⟩
  | cons entry entries ih =>
    rw [insertByPath] at hx
    split at hx
    · rcases List.mem_cons.1 hx with rfl | hx
      · exact .inl ⟨FilePath.same_rfl, rfl⟩
      · exact .inr hx
    · rename_i hsame
      rcases List.mem_cons.1 hx with rfl | hx
      · exact .inl ⟨FilePath.same_symm (FilePath.compare_eq.1 hsame), rfl⟩
      · exact .inr (.tail _ hx)
    · rcases List.mem_cons.1 hx with rfl | hx
      · exact .inr (.head _)
      · exact (ih hx).imp_right (.tail _)

theorem SortedByPath.insert (h : SortedByPath entries) :
    SortedByPath (insertByPath p v entries) := by
  induction entries with
  | nil => exact List.pairwise_singleton _ _
  | cons entry entries ih =>
    obtain ⟨hfirst, hrest⟩ := List.pairwise_cons.1 h
    rw [insertByPath]
    split
    · rename_i hlt
      refine List.pairwise_cons.2 ⟨fun x hx => ?_, h⟩
      rcases List.mem_cons.1 hx with rfl | hx
      · exact hlt
      · exact Std.TransCmp.lt_trans hlt (hfirst x hx)
    · exact List.pairwise_cons.2 ⟨hfirst, hrest⟩
    · rename_i hgt
      refine List.pairwise_cons.2 ⟨fun x hx => ?_, ih hrest⟩
      rcases mem_insertByPath hx with ⟨hkey, -⟩ | hx
      · rw [FilePath.compare, FilePath.same_iff.1 hkey]
        exact Std.OrientedCmp.gt_iff_lt.1 hgt
      · exact hfirst x hx

/-- In order, every entry is found by its key. -/
theorem SortedByPath.find (h : SortedByPath entries) {x : FilePath × α} (hx : x ∈ entries) :
    findByPath x.1 entries = some x.2 := by
  unfold findByPath
  induction entries with
  | nil => cases hx
  | cons entry entries ih =>
    obtain ⟨hfirst, hrest⟩ := List.pairwise_cons.1 h
    rcases List.mem_cons.1 hx with rfl | hx
    · rw [List.find?_cons_of_pos (by exact FilePath.same_rfl)]
      rfl
    · have hother : ¬ entry.1.same x.1 := fun hsame =>
        nomatch (FilePath.compare_eq.2 hsame).symm.trans (hfirst x hx)
      rw [List.find?_cons_of_neg (by exact hother)]
      exact ih hrest hx

/-- Entries are found by the components of the path. -/
theorem findByPath_same {q : FilePath} (h : p.same q) :
    findByPath p entries = findByPath q entries := by
  unfold findByPath FilePath.same
  rw [FilePath.same_iff.1 h]

end

namespace DirectoryOutput

/-! ## What can happen -/

/-- A unit that was to be written, and what came of it. -/
abbrev Call := UnitText × Except Failure WriteOutcome

/-- The unit that was written to a path last. -/
def lastWritten (calls : List Call) (path : FilePath) : Option UnitText :=
  (calls.reverse.find? fun c => c.2.isOk && c.1.path.same path).map (·.1)

theorem lastWritten_append (calls : List Call) (c : Call) (path : FilePath) :
    lastWritten (calls ++ [c]) path =
      if c.2.isOk && c.1.path.same path then some c.1 else lastWritten calls path := by
  unfold lastWritten
  rw [List.reverse_append, List.reverse_singleton, List.singleton_append, List.find?_cons]
  split
  · rename_i h
    rw [if_pos h]
    rfl
  · rename_i h
    rw [if_neg (by simp [h])]

/-- Nothing changes below a place, and the paths that lead there still do. -/
structure KeptBelow (root : Place) (files files' : FileSystem) : Prop where
  workingDirectory : files'.workingDirectory = files.workingDirectory
  node : ∀ here, root <+: here → files'.node? here = files.node? here
  place : ∀ p here, root <+: here → files.place p = .ok here → files'.place p = .ok here

/-- The place of the directory. -/
def place (o : DirectoryOutput) : Place := lexicalPlace o.files.workingDirectory o.root

/-- The texts of the files at and below a place. -/
def textsBelow (root : Place) (files : FileSystem) : Set String :=
  {s | ∃ here, root <+: here ∧ files.node? here = some (.file (.text s))}

section

variable {root : Place} {files files' : FileSystem}

theorem KeptBelow.textsBelow (h : KeptBelow root files files') :
    textsBelow root files' = textsBelow root files := by
  ext s
  constructor
  · rintro ⟨here, hbelow, hnode⟩
    exact ⟨here, hbelow, (h.node here hbelow).symm.trans hnode⟩
  · rintro ⟨here, hbelow, hnode⟩
    exact ⟨here, hbelow, (h.node here hbelow).trans hnode⟩

theorem KeptBelow.readText (h : KeptBelow root files files') {p : FilePath} {s : String}
    (hbelow : root <+: lexicalPlace files.workingDirectory p) (hread : files.readText p = .ok s) :
    files'.readText p = .ok s := by
  obtain ⟨here, hplace, hnode⟩ := FileSystem.readText_iff.1 hread
  rw [← FileSystem.place_eq hplace] at hbelow
  exact FileSystem.readText_iff.2
    ⟨here, h.place p here hbelow hplace, (h.node here hbelow).trans hnode⟩

end

/-! ## Steps -/

/-- The entries tell of the units that were written last, and these are in their files. -/
structure Tells (o : DirectoryOutput) (calls : List Call) : Prop where
  sorted : SortedByPath o.units
  keyed : ∀ x ∈ o.units, x.1.same x.2.path
  latest : ∀ path, findByPath path o.units = (lastWritten calls path).map .of
  source : ∀ path u, lastWritten calls path = some u → o.files.readText (o.target u) = .ok u.source

section

variable {o o' : DirectoryOutput} {calls made : List Call} {u : UnitText} {files : FileSystem}

/-- A call that fails does not count. -/
theorem Tells.failed (h : o.Tells calls) (u : UnitText) (f : Failure) :
    o.Tells (calls ++ [(u, .error f)]) := by
  have hlast : ∀ path, lastWritten (calls ++ [(u, .error f)]) path = lastWritten calls path :=
    fun path => lastWritten_append _ _ _
  exact ⟨h.sorted, h.keyed, fun path => by rw [hlast, h.latest],
    fun path v hv => h.source path v (by rwa [hlast] at hv)⟩

/-- A unit whose source is in its file gets its entry; the files of the other units are kept. -/
theorem Tells.record (h : o.Tells calls) (outcome : WriteOutcome)
    (hsource : files.readText (o.target u) = .ok u.source)
    (hkept : ∀ path v, lastWritten calls path = some v → ¬ u.path.same path →
      o.files.readText (o.target v) = .ok v.source → files.readText (o.target v) = .ok v.source) :
    (({ o with files := files } : DirectoryOutput).record u).Tells
      (calls ++ [(u, .ok outcome)]) := by
  have hlast : ∀ path, lastWritten (calls ++ [(u, .ok outcome)]) path =
      if u.path.same path then some u else lastWritten calls path :=
    fun path => lastWritten_append _ _ _
  have htarget : ∀ v, (({ o with files := files } : DirectoryOutput).record u).target v =
      o.target v := fun v => by
    rw [target, record_root, target]
  refine ⟨?_, ?_, fun path => ?_, fun path v hv => ?_⟩
  · rw [record_units]
    exact h.sorted.insert
  · rw [record_units]
    intro x hx
    rcases mem_insertByPath hx with ⟨hkey, hvalue⟩ | hx
    · rw [hvalue, ManifestEntry.of_path]
      exact hkey
    · exact h.keyed x hx
  · rw [record_units, hlast]
    split
    · rename_i hsame
      rw [← findByPath_same hsame, findByPath_insert_self]
      rfl
    · rename_i hother
      rw [findByPath_insert_other fun hsame => hother ?_]
      · exact h.latest path
      · exact FilePath.same_symm hsame
  · rw [hlast] at hv
    rw [record_files, htarget]
    split at hv
    · cases hv
      exact hsource
    · rename_i hother
      exact hkept path v hv hother (h.source path v hv)

/-- What holds of a directory in which no two texts that are compared have the same digest. -/
structure Sound (texts : Set String) (start o : DirectoryOutput) (calls : List Call) : Prop where
  within : o.Within start.root start.files.workingDirectory
  known : textsBelow o.place o.files ⊆ texts
  tells : o.Tells calls

variable {texts : Set String} {first : DirectoryOutput}

theorem Sound.failed (h : Sound texts first o calls) (u : UnitText) (f : Failure) :
    Sound texts first o (calls ++ [(u, .error f)]) :=
  ⟨h.within, h.known, h.tells.failed u f⟩

/-- What the entries say of their files. -/
theorem Tells.entry (h : o.Tells calls) {e : ManifestEntry} (he : e ∈ o.entries) :
    ∃ u, lastWritten calls e.path = some u ∧ e = .of u ∧
      o.files.readText (o.root.join e.path) = .ok u.source := by
  obtain ⟨x, hx, rfl⟩ := List.mem_map.1 he
  have hfound := h.latest x.2.path
  rw [← findByPath_same (h.keyed x hx), h.sorted.find hx] at hfound
  obtain ⟨u, hu, hentry⟩ := Option.map_eq_some_iff.1 hfound.symm
  refine ⟨u, hu, hentry.symm, ?_⟩
  rw [← hentry, ManifestEntry.of_path]
  exact h.source _ u hu

end

/-- Two short sources have digests of their own. -/
theorem injOn_hex_short : ({"a", "b"} : Set String).InjOn Sha256.hex :=
  Set.injOn_pair.2 (by decide +kernel)

end DirectoryOutput

end WrapperGen
