import WrapperGen.Output.Memory
import WrapperGen.Proofs.Files.Directories
import WrapperGen.Proofs.Output.Manifest
/-!
# Units in memory and in a directory

Units that are written into memory stand for files in a directory that was empty (`Mirrors`): each
call of the one output gives what the same call of the other one gives (`Mirrors.write`), so a whole
run does (`Mirrors.run`), and in the end memory holds what the directory holds
(`memory_simulates_directory`).

The directory compares digests, so no two sources may have the same.
-/

namespace WrapperGen

open Files Source

/-- The same outcome for a path below a root. -/
def WriteOutcome.under (root : FilePath) : WriteOutcome → WriteOutcome
  | written p => .written (root.join p)
  | upToDate p => .upToDate (root.join p)

/-- Writes units one after the other and gives what came of each. -/
def writeAll {σ : Type} (write : σ → UnitText → σ × Except Failure WriteOutcome) (s : σ) :
    List UnitText → σ × List (Except Failure WriteOutcome)
  | [] => (s, [])
  | u :: us =>
    let (next, result) := write s u
    let (last, results) := writeAll write next us
    (last, result :: results)

theorem writeAll_cons {σ : Type} (write : σ → UnitText → σ × Except Failure WriteOutcome) (s : σ)
    (u : UnitText) (us : List UnitText) :
    writeAll write s (u :: us) = ((writeAll write (write s u).1 us).1,
      (write s u).2 :: (writeAll write (write s u).1 us).2) :=
  rfl

/-- How many units were written. -/
def countWritten (results : List (Except Failure WriteOutcome)) : Nat :=
  results.countP (·.toOption.any (·.isWritten))

theorem countWritten_cons (r : Except Failure WriteOutcome)
    (rs : List (Except Failure WriteOutcome)) :
    countWritten (r :: rs) = countWritten [r] + countWritten rs := by
  rw [countWritten, ← List.singleton_append, List.countP_append]
  rfl

/-- The path of a package is made of identifiers. -/
def HasIdentifiers (package : String) : Prop :=
  ∀ s ∈ Text.splitPath package, Lexer.anyIdent? s.toList = some []

instance (package : String) : Decidable (HasIdentifiers package) :=
  inferInstanceAs (Decidable (∀ s ∈ Text.splitPath package, Lexer.anyIdent? s.toList = some []))

namespace UnitText

variable {u v : UnitText}

theorem isPlaced_of_identifiers (h : HasIdentifiers u.package) : u.IsPlaced :=
  fun s hs => Lexer.anyIdent?_isName (h s (mem_unitModules.1 hs).1)

theorem path_eq_of_steps (h : u.steps = v.steps) : u.path = v.path := by
  rw [path_eq, path_eq, h]

/-- Paths of units are the same only when they are written in the same way. -/
theorem IsPlaced.path_eq_of_same (hu : u.IsPlaced) (hv : v.IsPlaced) (h : u.path.same v.path) :
    u.path = v.path :=
  path_eq_of_steps ((hu.same_path hv).1 h)

end UnitText

theorem DirectoryOutput.Within.writeAll {root : FilePath} {workingDirectory : Place}
    {o : DirectoryOutput} (h : o.Within root workingDirectory) (us : List UnitText) :
    (writeAll DirectoryOutput.write o us).1.Within root workingDirectory := by
  induction us generalizing o with
  | nil => exact h
  | cons u us ih =>
    rw [writeAll_cons]
    exact ih (h.write u)

/-! ## Memory -/

theorem key_of_mem_insertByPath {α : Type} {p : FilePath} {v : α} {entries : List (FilePath × α)}
    {x : FilePath × α} (hx : x ∈ insertByPath p v entries) : x.1 = p ∨ x.1 ∈ entries.map (·.1) := by
  induction entries with
  | nil => exact .inl (by rw [List.mem_singleton.1 hx])
  | cons entry entries ih =>
    rw [insertByPath] at hx
    split at hx
    · rcases List.mem_cons.1 hx with rfl | hx
      · exact .inl rfl
      · exact .inr (List.mem_map_of_mem hx)
    · rcases List.mem_cons.1 hx with rfl | hx
      · exact .inr (.head _)
      · exact .inr (.tail _ (List.mem_map_of_mem hx))
    · rcases List.mem_cons.1 hx with rfl | hx
      · exact .inr (.head _)
      · exact (ih hx).imp_right (.tail _)

namespace MemoryOutput

variable {m : MemoryOutput} {u : UnitText}

theorem source?_store (package unit : String) : (m.store u.path u).source? package unit =
    if u.path.same (unitPath package unit) then some u.source else m.source? package unit := by
  unfold source? store
  split
  · rename_i hsame
    rw [← findByPath_same hsame, findByPath_insert_self]
    rfl
  · rename_i hother
    rw [findByPath_insert_other fun hsame => hother ?_]
    exact FilePath.same_symm hsame

theorem source?_of_steps {v : UnitText} (h : u.steps = v.steps) :
    m.source? u.package u.unit = m.source? v.package v.unit :=
  congrArg (fun p => (findByPath p m.units).map StoredUnit.source) (UnitText.path_eq_of_steps h)

/-- A unit is stored unless it is there. -/
theorem write_eq (h : m.failOn = none) : m.write u =
    if m.source? u.package u.unit = some u.source then (m, .ok (.upToDate u.path))
    else (m.store u.path u, .ok (.written u.path)) := by
  have hthere : (findByPath u.path m.units).any (·.source = u.source) ↔
      m.source? u.package u.unit = some u.source := by
    rw [source?, Option.map_eq_some_iff, Option.any_eq_true]
    simp
  unfold write
  rw [h, if_neg (Option.some_ne_none u.unit).symm]
  exact if_congr hthere rfl rfl

end MemoryOutput

/-! ## Both outputs -/

/-- What a directory and memory have in common. The sources are some of the texts. -/
structure Mirrors (texts : Set String) (o : DirectoryOutput) (m : MemoryOutput) : Prop where
  accepts : m.failOn = none
  sorted : SortedByPath m.units
  keyed : ∀ x ∈ m.units, ∃ u : UnitText, u.IsPlaced ∧ x.1 = u.path
  known : ∀ package unit s, m.source? package unit = some s → s ∈ texts
  /-- A unit is in memory what it is in the directory. -/
  source : ∀ u : UnitText, u.IsPlaced → ∀ s,
    o.files.readText (o.target u) = .ok s ↔ m.source? u.package u.unit = some s
  /-- There are no other files in the directory. -/
  only : ∀ names c, o.files.node? (o.place ++ names) = some (.file c) →
    ∃ u : UnitText, u.IsPlaced ∧ u.steps = names ∧
      ∃ s, c = .text s ∧ m.source? u.package u.unit = some s

namespace Mirrors

variable {texts : Set String} {o : DirectoryOutput} {m : MemoryOutput} {u : UnitText}

theorem start {files : FileSystem} {root : FilePath} {forBuild : Bool}
    (hempty : ∀ names c,
      files.node? (lexicalPlace files.workingDirectory root ++ names) ≠ some (.file c)) :
    Mirrors texts (.start files root forBuild) (.empty none) where
  accepts := rfl
  sorted := .nil
  keyed := nofun
  known := nofun
  source u hu s := by
    refine ⟨fun hread => ?_, nofun⟩
    obtain ⟨here, hplace, hnode⟩ := FileSystem.readText_iff.1 hread
    rw [FileSystem.place_eq hplace, DirectoryOutput.target, hu.place] at hnode
    exact absurd hnode (hempty _ _)
  only names c hnode := absurd hnode (hempty names c)

/-- The digests tell what is up to date. -/
theorem upToDate_iff (h : Mirrors texts o m) (hdigests : texts.InjOn Text.Sha256.hex)
    (hu : u.IsPlaced) (hsource : u.source ∈ texts) :
    DirectoryOutput.isUpToDate o.files (o.target u) u.source ↔
      m.source? u.package u.unit = some u.source := by
  rw [DirectoryOutput.isUpToDate_iff]
  constructor
  · rintro ⟨s, hread, hdigest⟩
    have hstored := (h.source u hu s).1 hread
    rwa [hdigests (h.known _ _ s hstored) hsource hdigest] at hstored
  · intro hstored
    exact ⟨u.source, (h.source u hu _).2 hstored, rfl⟩

theorem record (h : Mirrors texts o m) (u : UnitText) : Mirrors texts (o.record u) m where
  accepts := h.accepts
  sorted := h.sorted
  keyed := h.keyed
  known := h.known
  source v hv s := by
    rw [DirectoryOutput.target, DirectoryOutput.record_files, DirectoryOutput.record_root]
    exact h.source v hv s
  only names c hnode := by
    rw [DirectoryOutput.place, DirectoryOutput.record_files, DirectoryOutput.record_root] at hnode
    exact h.only names c hnode

/-- A unit that was written to its file, and nothing else, is to be stored. -/
theorem written (h : Mirrors texts o m) (hu : u.IsPlaced) (hsource : u.source ∈ texts)
    {files : FileSystem}
    (grows : FileSystem.Grows (· = lexicalPlace o.files.workingDirectory (o.target u)) o.files
      files)
    (there : files.readText (o.target u) = .ok u.source) :
    Mirrors texts { o with files := files } (m.store u.path u) := by
  have htarget : lexicalPlace o.files.workingDirectory (o.target u) = o.place ++ u.steps :=
    hu.place _ _
  have hother : ∀ {names c}, u.steps ≠ names → files.node? (o.place ++ names) = some (.file c) →
      o.files.node? (o.place ++ names) = some (.file c) := fun hne =>
    (grows.file _ _ fun htouched =>
      hne (List.append_cancel_left (htarget.symm.trans htouched.symm))).1
  have hkept : ∀ {v : UnitText}, v.IsPlaced → ¬ u.path.same v.path →
      (m.store u.path u).source? v.package v.unit = m.source? v.package v.unit := fun hv hne => by
    rw [MemoryOutput.source?_store, if_neg hne]
  refine ⟨h.accepts, h.sorted.insert, fun x hx => ?_, fun package unit s hs => ?_,
    fun v hv s => ?_, fun names c hnode => ?_⟩
  · rcases key_of_mem_insertByPath hx with hkey | hkey
    · exact ⟨u, hu, hkey⟩
    · obtain ⟨y, hy, hkey⟩ := List.mem_map.1 hkey
      exact hkey ▸ h.keyed y hy
  · rw [MemoryOutput.source?_store] at hs
    split at hs
    · exact Option.some.inj hs ▸ hsource
    · exact h.known package unit s hs
  · change files.readText (o.target v) = .ok s ↔ _
    by_cases hsame : u.path.same v.path
    · have hpath : o.target v = o.target u :=
        congrArg o.root.join (hu.path_eq_of_same hv hsame).symm
      rw [MemoryOutput.source?_store, if_pos hsame, hpath, there, Except.ok.injEq,
        Option.some.injEq]
    · have hsteps : u.steps ≠ v.steps := fun hsteps => hsame ((hu.same_path hv).2 hsteps)
      rw [hkept hv hsame]
      constructor
      · intro hread
        obtain ⟨here, hplace, hnode⟩ := FileSystem.readText_iff.1 hread
        rw [FileSystem.place_eq hplace, grows.workingDirectory, DirectoryOutput.target,
          hv.place] at hnode
        obtain ⟨w, hw, hwv, s', hs', hstored⟩ := h.only v.steps _ (hother hsteps hnode)
        cases hs'
        rwa [MemoryOutput.source?_of_steps hwv] at hstored
      · intro hstored
        refine FileSystem.readText_of_grows grows (fun htouched => hsteps ?_)
          ((h.source v hv s).2 hstored)
        rw [htarget, DirectoryOutput.target, hv.place] at htouched
        exact (List.append_cancel_left htouched).symm
  · rw [DirectoryOutput.place, grows.workingDirectory] at hnode
    by_cases hsteps : u.steps = names
    · obtain ⟨here, hplace, htext⟩ := FileSystem.readText_iff.1 there
      rw [FileSystem.place_eq hplace, grows.workingDirectory, htarget, hsteps] at htext
      obtain rfl : c = .text u.source := by simpa using hnode.symm.trans htext
      refine ⟨u, hu, hsteps, u.source, rfl, ?_⟩
      rw [MemoryOutput.source?_store, if_pos FilePath.same_rfl]
    · obtain ⟨v, hv, rfl, s, hc, hstored⟩ := h.only names c (hother hsteps hnode)
      refine ⟨v, hv, rfl, s, hc, ?_⟩
      rw [hkept hv fun hsame => hsteps ((hu.same_path hv).1 hsame), hstored]

/-- **One call.** When the directory accepts a unit, memory does the same. -/
theorem write (h : Mirrors texts o m) (hdigests : texts.InjOn Text.Sha256.hex) (hu : u.IsPlaced)
    (hsource : u.source ∈ texts) (hok : (o.write u).2.isOk) :
    Mirrors texts (o.write u).1 (m.write u).1 ∧
      (o.write u).2 = (m.write u).2.map (·.under o.root) ∧
      (m.write u).1.writes = m.writes + countWritten [(o.write u).2] := by
  have hiff := h.upToDate_iff hdigests hu hsource
  rw [MemoryOutput.write_eq h.accepts]
  by_cases hthere : DirectoryOutput.isUpToDate o.files (o.target u) u.source
  · have hsteps := o.write_steps u
    rw [if_pos (hiff.1 hthere)]
    generalize o.write u = x at hsteps hok ⊢
    cases hsteps with
    | upToDate => exact ⟨h.record u, rfl, rfl⟩
    | noParent stale | refused stale | written stale => rw [stale] at hthere; cases hthere
  · have hcases := o.write_cases u
    rw [if_neg fun hstored => hthere (hiff.2 hstored)]
    generalize o.write u = x at hcases hok ⊢
    cases hcases with
    | upToDate there => exact absurd (DirectoryOutput.isUpToDate_iff.2 there) hthere
    | refused => cases hok
    | written files grows there => exact ⟨(h.written hu hsource grows there).record u, rfl, rfl⟩

/-- A run of calls that the directory accepts. -/
theorem run {us : List UnitText} (h : Mirrors texts o m) (hdigests : texts.InjOn Text.Sha256.hex)
    (hus : ∀ u ∈ us, u.IsPlaced ∧ u.source ∈ texts)
    (hok : ∀ r ∈ (writeAll DirectoryOutput.write o us).2, r.isOk) :
    Mirrors texts (writeAll DirectoryOutput.write o us).1 (writeAll MemoryOutput.write m us).1 ∧
      (writeAll DirectoryOutput.write o us).2 =
        (writeAll MemoryOutput.write m us).2.map (·.map (·.under o.root)) ∧
      (writeAll MemoryOutput.write m us).1.writes =
        m.writes + countWritten (writeAll DirectoryOutput.write o us).2 := by
  induction us generalizing o m with
  | nil => exact ⟨h, rfl, rfl⟩
  | cons u us ih =>
    rw [writeAll_cons] at hok
    obtain ⟨hfirst, hrest⟩ := List.forall_mem_cons.1 hok
    obtain ⟨hu, hsource⟩ := hus u (.head _)
    obtain ⟨hnext, hresult, hwrites⟩ := h.write hdigests hu hsource hfirst
    obtain ⟨hlast, hresults, hall⟩ := ih hnext (fun v hv => hus v (.tail _ hv)) hrest
    have hroot : (o.write u).1.root = o.root :=
      (DirectoryOutput.Within.write ⟨rfl, rfl⟩ u : DirectoryOutput.Within o.root _ _).root
    rw [writeAll_cons, writeAll_cons]
    refine ⟨hlast, ?_, ?_⟩
    · rw [List.map_cons, ← hresult, hresults, hroot]
    · rw [hall, hwrites, Nat.add_assoc, ← countWritten_cons]

/-- What is stored is in the file of its path. -/
theorem readText (h : Mirrors texts o m) {x : FilePath × StoredUnit} (hx : x ∈ m.units) :
    o.files.readText (o.root.join x.1) = .ok x.2.source := by
  obtain ⟨u, hu, hkey⟩ := h.keyed x hx
  have hfound := h.sorted.find hx
  rw [hkey] at hfound ⊢
  refine (h.source u hu _).2 ?_
  rw [MemoryOutput.source?, hfound]
  rfl

/-- What is in a file is stored at its path. -/
theorem stored (h : Mirrors texts o m) {names : List String} {c : Content}
    (hnode : o.files.node? (o.place ++ names) = some (.file c)) :
    ∃ x ∈ m.units, lexicalPlace o.files.workingDirectory (o.root.join x.1) = o.place ++ names ∧
      c = .text x.2.source := by
  obtain ⟨u, hu, rfl, s, rfl, hstored⟩ := h.only names c hnode
  obtain ⟨unit, hfound, rfl⟩ := Option.map_eq_some_iff.1 hstored
  obtain ⟨x, hx, rfl⟩ := Option.map_eq_some_iff.1 hfound
  have hmem := List.mem_of_find?_eq_some hx
  obtain ⟨v, hv, hkey⟩ := h.keyed x hmem
  have hsame : x.1.same u.path := (List.find?_some hx :)
  refine ⟨x, hmem, ?_, rfl⟩
  rw [hkey] at hsame ⊢
  rw [hv.path_eq_of_same hu hsame]
  exact hu.place _ _

end Mirrors

/-- **Memory simulates a directory.** Units whose packages are made of identifiers are written into
memory, and into a directory that holds no file and accepts them all. Unless two of their sources
have the same digest,

* each call has the same outcome for the same path, up to the path of the directory;
* in the end, what is stored is in the file of its path, and there are no other files;
* so a unit has the same source in both;
* as many units were stored as files were written. -/
theorem memory_simulates_directory (files : FileSystem) (root : FilePath) (forBuild : Bool)
    (us : List UnitText)
    (hempty : ∀ names c,
      files.node? (lexicalPlace files.workingDirectory root ++ names) ≠ some (.file c))
    (hpackages : ∀ u ∈ us, HasIdentifiers u.package)
    (hdigests : {s | ∃ u ∈ us, u.source = s}.InjOn Text.Sha256.hex)
    (hok : ∀ r ∈ (writeAll DirectoryOutput.write (.start files root forBuild) us).2, r.isOk) :
    let inFiles := writeAll DirectoryOutput.write (.start files root forBuild) us
    let inMemory := writeAll MemoryOutput.write (.empty none) us
    inFiles.2 = inMemory.2.map (·.map (·.under root)) ∧
      (∀ x ∈ inMemory.1.units, inFiles.1.files.readText (root.join x.1) = .ok x.2.source) ∧
      (∀ names c, inFiles.1.files.node? (lexicalPlace files.workingDirectory root ++ names) =
          some (.file c) →
        ∃ x ∈ inMemory.1.units, lexicalPlace files.workingDirectory (root.join x.1) =
          lexicalPlace files.workingDirectory root ++ names ∧ c = .text x.2.source) ∧
      (∀ package unit, HasIdentifiers package → ∀ s,
        inFiles.1.files.readText (root.join (unitPath package unit)) = .ok s ↔
          inMemory.1.source? package unit = some s) ∧
      inMemory.1.writes = countWritten inFiles.2 := by
  have hus : ∀ u ∈ us, u.IsPlaced ∧ u.source ∈ {s | ∃ u ∈ us, u.source = s} := fun u hu =>
    ⟨UnitText.isPlaced_of_identifiers (hpackages u hu), u, hu, rfl⟩
  intro inFiles inMemory
  obtain ⟨hlast, hresults, hwrites⟩ := (Mirrors.start hempty).run hdigests hus hok
  have hfirst : (DirectoryOutput.start files root forBuild).Within root files.workingDirectory :=
    ⟨rfl, rfl⟩
  have hwithin : inFiles.1.Within root files.workingDirectory := hfirst.writeAll us
  have hplace : inFiles.1.place = lexicalPlace files.workingDirectory root := by
    rw [DirectoryOutput.place, hwithin.workingDirectory, hwithin.root]
  refine ⟨hresults, fun x hx => ?_, fun names c hnode => ?_, fun package unit hpackage s => ?_, ?_⟩
  · rw [← hwithin.root]
    exact hlast.readText hx
  · obtain ⟨x, hx, hthere, hc⟩ := hlast.stored (hplace ▸ hnode)
    refine ⟨x, hx, ?_, hc⟩
    rwa [hwithin.workingDirectory, hwithin.root, hplace] at hthere
  · have hu : UnitText.IsPlaced ⟨package, unit, s, ⟨""⟩⟩ :=
      UnitText.isPlaced_of_identifiers hpackage
    rw [← hwithin.root]
    exact hlast.source _ hu s
  · rw [hwrites, MemoryOutput.empty, Nat.zero_add]

/-- An empty directory. -/
def emptyOut : FileSystem := ⟨[(["out"], .directory)], []⟩

theorem emptyOut_empty (here : Place) (c : Content) : emptyOut.node? here ≠ some (.file c) := by
  intro hnode
  have hne : here ≠ [] := by
    rintro rfl
    cases hnode
  have hentries : ∀ e ∈ emptyOut.entries, e.2 = .directory := by decide
  cases hentries _ (FileSystem.mem_entries_of_node? hnode hne)

/-- Two units that share a file, one of them again, one in another module, and the first again. -/
def fiveUnits : List UnitText :=
  [⟨"crate::api", "FooBar", "a", ⟨"api.rs"⟩⟩, ⟨"crate::api", "Foo_Bar", "b", ⟨"api.rs"⟩⟩,
    ⟨"crate::api", "Foo_Bar", "b", ⟨"api.rs"⟩⟩, ⟨"crate::api::v2", "FooBar", "a", ⟨"api.rs"⟩⟩,
    ⟨"crate::api", "FooBar", "a", ⟨"api.rs"⟩⟩]

theorem five_units_simulated :
    let inFiles := writeAll DirectoryOutput.write (.start emptyOut ⟨"out"⟩ false) fiveUnits
    let inMemory := writeAll MemoryOutput.write (.empty none) fiveUnits
    inFiles.2 = inMemory.2.map (·.map (·.under ⟨"out"⟩)) ∧ inMemory.1.writes = 4 ∧
      inMemory.1.writes = countWritten inFiles.2 ∧
      inFiles.1.files.readText ⟨"out/api/foo_bar.rs"⟩ = .ok "a" := by
  have hsources : ∀ u ∈ fiveUnits, u.source = "a" ∨ u.source = "b" := by decide
  obtain ⟨hresults, hstored, -, -, hwrites⟩ := memory_simulates_directory emptyOut ⟨"out"⟩ false
    fiveUnits (fun _ => emptyOut_empty _) (by decide)
    (DirectoryOutput.injOn_hex_short.mono fun s ⟨u, hu, hs⟩ => hs ▸ hsources u hu) (by decide +kernel)
  refine ⟨hresults, by decide +kernel, hwrites, ?_⟩
  exact hstored (⟨"api/foo_bar.rs"⟩, ⟨"a", ⟨"api.rs"⟩⟩) (by decide +kernel)

end WrapperGen
