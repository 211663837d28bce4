import WrapperGen.Output.Directory
import WrapperGen.Output.Recording
import WrapperGen.Proofs.Files.Writes
import WrapperGen.Proofs.Output.UnitPaths
import WrapperGen.Proofs.Rounds.Generated
/-!
# What is left of the units

A unit that is generated takes the place of every unit that was generated at its path before.
Apart from that, units stay:

* `DirectoryOutput.write_cases`: everything that writing a unit into a directory can do
  (`Writing`).
* `generated_units_kept`: which units have the same path, and which are still there at the end.
-/

namespace WrapperGen

open Files Text

/-! ## Directories -/

namespace DirectoryOutput

@[simp] theorem print_files (o : DirectoryOutput) (lines : List String) :
    (o.print lines).files = o.files := by
  unfold print
  split <;> rfl

@[simp] theorem print_root (o : DirectoryOutput) (lines : List String) :
    (o.print lines).root = o.root := by
  unfold print
  split <;> rfl

@[simp] theorem print_units (o : DirectoryOutput) (lines : List String) :
    (o.print lines).units = o.units := by
  unfold print
  split <;> rfl

@[simp] theorem record_files (o : DirectoryOutput) (u : UnitText) :
    (o.record u).files = o.files := by
  simp [record]

@[simp] theorem record_root (o : DirectoryOutput) (u : UnitText) :
    (o.record u).root = o.root := by
  simp [record]

@[simp] theorem record_units (o : DirectoryOutput) (u : UnitText) :
    (o.record u).units = insertByPath (unitPath u.package u.unit) (.of u) o.units := by
  simp [record]

/-- Whether the file has the source, as far as digests tell. -/
def HasSource (files : FileSystem) (p : FilePath) (source : String) : Prop :=
  ∃ s, files.readText p = .ok s ∧ Sha256.hex s = Sha256.hex source

/-- The steps of writing a unit. -/
inductive WriteSteps (o : DirectoryOutput) (u : UnitText) :
    DirectoryOutput × Except Failure WriteOutcome → Prop
  | upToDate (there : isUpToDate o.files (o.target u) u.source) :
      WriteSteps o u (o.record u, .ok (.upToDate (o.target u)))
  | noParent {files : FileSystem} {e : IoError}
      (stale : isUpToDate o.files (o.target u) u.source = false)
      (parent : makeParent o.files (o.target u) = (files, some e)) :
      WriteSteps o u ({ o with files := files }, .error (.writeFailed u.unit e))
  | refused {files : FileSystem} {e : IoError}
      (stale : isUpToDate o.files (o.target u) u.source = false)
      (parent : makeParent o.files (o.target u) = (files, none))
      (write : files.writeText (o.target u) u.source = .error e) :
      WriteSteps o u ({ o with files := files }, .error (.writeFailed u.unit e))
  | written {above files : FileSystem}
      (stale : isUpToDate o.files (o.target u) u.source = false)
      (parent : makeParent o.files (o.target u) = (above, none))
      (write : above.writeText (o.target u) u.source = .ok files) :
      WriteSteps o u ({ o with files := files }.record u, .ok (.written (o.target u)))

theorem write_steps (o : DirectoryOutput) (u : UnitText) : WriteSteps o u (o.write u) := by
  unfold write
  dsimp only
  split
  · rename_i there
    exact .upToDate there
  · rename_i stale
    rw [Bool.not_eq_true] at stale
    split
    · rename_i parent
      exact .noParent stale parent
    · rename_i parent
      split
      · rename_i write
        exact .refused stale parent write
      · rename_i write
        exact .written stale parent write

theorem makeParent_grows (files : FileSystem) (target : FilePath) (touched : Place → Prop) :
    FileSystem.Grows touched files (makeParent files target).1 := by
  unfold makeParent
  split
  · exact FileSystem.makeDirectories_grows files _ _
  · exact .refl files

/-- What writing a unit can do. -/
inductive Writing (o : DirectoryOutput) (u : UnitText) :
    DirectoryOutput × Except Failure WriteOutcome → Prop
  | upToDate (there : HasSource o.files (o.target u) u.source) :
      Writing o u (o.record u, .ok (.upToDate (o.target u)))
  | refused (files : FileSystem) (grows : FileSystem.Grows (fun _ => False) o.files files)
      (f : Failure) : Writing o u ({ o with files := files }, .error f)
  | written (files : FileSystem)
      (grows : FileSystem.Grows
        (· = lexicalPlace o.files.workingDirectory (o.target u)) o.files files)
      (there : files.readText (o.target u) = .ok u.source) :
      Writing o u ({ o with files := files }.record u, .ok (.written (o.target u)))

theorem isUpToDate_iff {files : FileSystem} {p : FilePath} {source : String} :
    isUpToDate files p source ↔ HasSource files p source := by
  unfold isUpToDate HasSource
  cases files.readText p <;> simp

theorem write_cases (o : DirectoryOutput) (u : UnitText) : Writing o u (o.write u) := by
  have hsteps := o.write_steps u
  have hparents := makeParent_grows o.files (o.target u)
  generalize o.write u = x at hsteps ⊢
  cases hsteps with
  | upToDate there => exact .upToDate (isUpToDate_iff.1 there)
  | noParent _ parent =>
    rw [parent] at hparents
    exact .refused _ (hparents _) _
  | refused _ parent =>
    rw [parent] at hparents
    exact .refused _ (hparents _) _
  | written _ parent write =>
    rw [parent] at hparents
    have hgrows := FileSystem.write_grows write
    rw [(hparents fun _ => False).workingDirectory] at hgrows
    exact .written _ ((hparents _).trans hgrows) (FileSystem.readText_writeText write)

variable {root : FilePath} {workingDirectory : Place} {o : DirectoryOutput}

/-- The directory that is written to does not change. -/
structure Within (root : FilePath) (workingDirectory : Place) (o : DirectoryOutput) : Prop where
  root : o.root = root
  workingDirectory : o.files.workingDirectory = workingDirectory

theorem HasSource.of_grows {files files' : FileSystem} {touched : Place → Prop} {p : FilePath}
    {source : String} (h : HasSource files p source) (hg : FileSystem.Grows touched files files')
    (hp : ¬ touched (lexicalPlace files.workingDirectory p)) : HasSource files' p source := by
  obtain ⟨s, hread, hdigest⟩ := h
  exact ⟨s, FileSystem.readText_of_grows hg hp hread, hdigest⟩

theorem Within.log (h : Within root workingDirectory o) (e : Entry) :
    Within root workingDirectory (host.log e o) :=
  ⟨(print_root o _).trans h.root, by rw [← h.workingDirectory]; exact congrArg _ (print_files o _)⟩

theorem Within.write (h : Within root workingDirectory o) (u : UnitText) :
    Within root workingDirectory (o.write u).1 := by
  have hc := o.write_cases u
  generalize o.write u = x at hc ⊢
  cases hc with
  | upToDate there => exact ⟨by rw [record_root, h.root], by rw [record_files, h.workingDirectory]⟩
  | refused files grows f => exact ⟨h.root, by rw [grows.workingDirectory, h.workingDirectory]⟩
  | written files grows there =>
    exact ⟨by rw [record_root, h.root],
      by rw [record_files, grows.workingDirectory, h.workingDirectory]⟩

theorem log_files (o : DirectoryOutput) (e : Entry) : (host.log e o).files = o.files :=
  print_files o _

theorem log_units (o : DirectoryOutput) (e : Entry) : (host.log e o).units = o.units :=
  print_units o _

theorem host_write (o : DirectoryOutput) (u : UnitText) : host.write u o = o.write u := by
  rw [host]

theorem within_keeps {p q : Processor DirectoryOutput} {xs : List (Point DirectoryOutput)}
    (ht : Trail host p xs q) (hp : Within root workingDirectory p.world) :
    Within root workingDirectory q.world := by
  refine Trail.keeps (fun _ => False) (fun e w hw => hw.log e) (fun u w w' f hw he => ?_)
    (fun u w w' o hw _ he => ?_) ht (fun _ _ => not_false) hp
  · rw [host_write] at he
    have hwrite := hw.write u
    rwa [he] at hwrite
  · rw [host_write] at he
    have hwrite := hw.write u
    rwa [he] at hwrite

/-- A source is there once its unit was written. -/
theorem accepted_hasSource {o' : DirectoryOutput} {u : UnitText} {outcome : WriteOutcome}
    (h : o.write u = (o', .ok outcome)) :
    outcome.path = o.target u ∧ HasSource o'.files (o.target u) u.source := by
  have hc := o.write_cases u
  rw [h] at hc
  cases hc with
  | upToDate there =>
    rw [record_files]
    exact ⟨by rw [WriteOutcome.path], there⟩
  | written files grows there =>
    rw [record_files]
    exact ⟨by rw [WriteOutcome.path], u.source, there, rfl⟩

/-- A source stays unless another unit is written at its place. -/
theorem hasSource_keeps {path : FilePath} {source : String} {p q : Processor DirectoryOutput}
    {xs : List (Point DirectoryOutput)} (ht : Trail host p xs q)
    (hp : Within root workingDirectory p.world) (hsource : HasSource p.world.files path source)
    (hxs : ∀ a ∈ generatedIn xs,
      lexicalPlace workingDirectory (root.join (unitPath a.1.packageName a.1.unitName)) ≠
        lexicalPlace workingDirectory path) :
    HasSource q.world.files path source := by
  let K (o : DirectoryOutput) : Prop :=
    Within root workingDirectory o ∧ HasSource o.files path source
  let clash (v : UnitText) : Prop :=
    lexicalPlace workingDirectory (root.join (unitPath v.package v.unit)) =
      lexicalPlace workingDirectory path
  suffices hK : K q.world from hK.2
  refine ht.keeps clash (fun e w hw => ?_) (fun v w w' f hw he => ?_)
    (fun v w w' o hw hclash he => ?_) hxs ⟨hp, hsource⟩
  · refine ⟨hw.1.log e, ?_⟩
    rw [log_files]
    exact hw.2
  · rw [host_write] at he
    have hwithin := hw.1.write v
    have hc := w.write_cases v
    rw [he] at hc hwithin
    cases hc with
    | refused files grows => exact ⟨hwithin, hw.2.of_grows grows not_false⟩
  · rw [host_write] at he
    have hwithin := hw.1.write v
    have hc := w.write_cases v
    rw [he] at hc hwithin
    refine ⟨hwithin, ?_⟩
    cases hc with
    | upToDate there =>
      rw [record_files]
      exact hw.2
    | written files grows there =>
      rw [record_files]
      refine hw.2.of_grows grows ?_
      rw [target, hw.1.root, hw.1.workingDirectory]
      exact fun hplace => hclash hplace.symm

/-- A manifest entry is there once its unit was written. -/
theorem accepted_entry {o' : DirectoryOutput} {u : UnitText} {outcome : WriteOutcome}
    (h : o.write u = (o', .ok outcome)) :
    findByPath (unitPath u.package u.unit) o'.units = some (.of u) := by
  have hc := o.write_cases u
  rw [h] at hc
  cases hc with
  | upToDate there =>
    rw [record_units]
    exact findByPath_insert_self
  | written files grows there =>
    rw [record_units]
    exact findByPath_insert_self

/-- A manifest entry stays unless another unit is written at its path. -/
theorem entry_keeps {u : UnitText} {p q : Processor DirectoryOutput}
    {xs : List (Point DirectoryOutput)} (ht : Trail host p xs q)
    (hentry : findByPath (unitPath u.package u.unit) p.world.units = some (.of u))
    (hxs : ∀ a ∈ generatedIn xs,
      ¬ (unitPath u.package u.unit).same (unitPath a.1.packageName a.1.unitName)) :
    findByPath (unitPath u.package u.unit) q.world.units = some (.of u) := by
  let K (o : DirectoryOutput) : Prop :=
    findByPath (unitPath u.package u.unit) o.units = some (.of u)
  let clash (v : UnitText) : Prop :=
    (unitPath u.package u.unit).same (unitPath v.package v.unit)
  suffices hK : K q.world from hK
  refine ht.keeps clash (fun e w hw => ?_) (fun v w w' f hw he => ?_)
    (fun v w w' o hw hclash he => ?_) hxs hentry
  · show findByPath _ (host.log e w).units = _
    rw [log_units]
    exact hw
  · rw [host_write] at he
    have hc := w.write_cases v
    rw [he] at hc
    cases hc with
    | refused files grows => exact hw
  · rw [host_write] at he
    have hc := w.write_cases v
    rw [he] at hc
    cases hc with
    | upToDate there =>
      show findByPath _ (w.record v).units = _
      rw [record_units, findByPath_insert_other hclash]
      exact hw
    | written files grows there =>
      show findByPath _ (({ w with files := files } : DirectoryOutput).record v).units = _
      rw [record_units, findByPath_insert_other hclash]
      exact hw

/-- After a unit was generated it is there, and the units after it are those of the rest. -/
theorem after_generated {p q : Processor DirectoryOutput} {xs : List (Point DirectoryOutput)}
    (ht : Trail host p xs q) (hp : Within root workingDirectory p.world)
    {earlier later : List (GeneratedUnit × FilePath)} {u : GeneratedUnit} {path : FilePath}
    (hxs : generatedIn xs = earlier ++ (u, path) :: later) :
    ∃ (s : Processor DirectoryOutput) (after : List (Point DirectoryOutput)),
      Trail host s after q ∧ later = generatedIn after ∧
        Within root workingDirectory s.world ∧
        path = root.join (unitPath u.packageName u.unitName) ∧
        HasSource s.world.files path u.source ∧
        findByPath (unitPath u.packageName u.unitName) s.world.units = some (.of u.toText) := by
  obtain ⟨_, x, w, e, o, after, hwrite, rfl, hworld, hbefore, hafter, rfl⟩ :=
    ht.split_generated hxs
  rw [host_write] at hwrite
  have hx := within_keeps hbefore hp
  have hw := hx.write u.toText
  rw [hwrite] at hw
  obtain ⟨hpath, hsource⟩ := accepted_hasSource hwrite
  have hentry := accepted_entry hwrite
  refine ⟨x.after, after, hafter, rfl, ?_, ?_, ?_, ?_⟩
  · rw [hworld]
    exact hw.log e
  · rw [hpath, target, hx.root]
    rfl
  · rw [hworld, log_files, hpath]
    exact hsource
  · rw [hworld, log_units]
    exact hentry

/-- The path of a unit that was generated. -/
theorem path_of_mem {p q : Processor DirectoryOutput} {xs : List (Point DirectoryOutput)}
    (ht : Trail host p xs q) (hp : Within root workingDirectory p.world)
    {a : GeneratedUnit × FilePath} (ha : a ∈ generatedIn xs) :
    a.2 = root.join (unitPath a.1.packageName a.1.unitName) := by
  obtain ⟨earlier, later, hsplit⟩ := List.append_of_mem ha
  obtain ⟨_, _, _, _, _, hpath, -, -⟩ := after_generated ht hp hsplit
  exact hpath

/-! ## Manifest -/

theorem manifestName_isName : FilePath.IsName manifestName.toList :=
  ⟨by decide, by decide, by decide⟩

/-- The manifest is no unit's file. -/
theorem manifest_place_ne (workingDirectory : Place) (root directory : FilePath) (unit : String) :
    lexicalPlace workingDirectory (root.join (directory.join ⟨unitFile unit⟩)) ≠
      lexicalPlace workingDirectory (root.join ⟨manifestName⟩) := by
  obtain ⟨here, hunit⟩ := FileSystem.lexicalPlace_of_name workingDirectory
    (FilePath.components_join_join_name root directory (unitFile_isName unit))
  obtain ⟨there, hmanifest⟩ := FileSystem.lexicalPlace_of_name workingDirectory
    (FilePath.components_join_name root manifestName_isName)
  rw [hunit, hmanifest]
  intro hplace
  have hname : unitFile unit = manifestName := by simpa using (List.append_inj' hplace rfl).2
  have hlast : (unitFile unit).toList.getLast? = some 's' := by
    rw [unitFile_toList]
    simp
  rw [hname] at hlast
  exact absurd hlast (by decide)

/-- What writing the manifest does. -/
theorem finish_steps {files : FileSystem} {path : FilePath} (h : o.finish = .ok (files, path)) :
    path = o.root.join ⟨manifestName⟩ ∧ ∃ above, o.files.makeDirectories o.root = (above, none) ∧
      above.writeText path (manifest o.entries).pretty = .ok files := by
  unfold finish at h
  cases hroot : o.files.createDirectories o.root with
  | error e => rw [hroot] at h; cases h
  | ok above =>
    simp only [hroot, bind, Except.bind] at h
    cases hwrite : above.writeText (o.root.join ⟨manifestName⟩) (manifest o.entries).pretty with
    | error e => rw [hwrite] at h; cases h
    | ok files' =>
      simp only [hwrite, pure, Except.pure, Except.ok.injEq, Prod.mk.injEq] at h
      obtain ⟨rfl, rfl⟩ := h
      exact ⟨rfl, above, FileSystem.createDirectories_ok.1 hroot, hwrite⟩

theorem finish_ok {files : FileSystem} {path : FilePath} (h : o.finish = .ok (files, path)) :
    FileSystem.Grows
        (· = lexicalPlace o.files.workingDirectory (o.root.join ⟨manifestName⟩)) o.files files ∧
      path = o.root.join ⟨manifestName⟩ ∧
      files.readText path = .ok (manifest o.entries).pretty := by
  obtain ⟨rfl, above, hmade, hwrite⟩ := finish_steps h
  have habove : FileSystem.Grows
      (· = lexicalPlace o.files.workingDirectory (o.root.join ⟨manifestName⟩)) o.files above := by
    have hgrows := FileSystem.makeDirectories_grows o.files o.root
      (· = lexicalPlace o.files.workingDirectory (o.root.join ⟨manifestName⟩))
    rwa [hmade] at hgrows
  have hmanifest := FileSystem.write_grows hwrite
  rw [habove.workingDirectory] at hmanifest
  exact ⟨habove.trans hmanifest, rfl, FileSystem.readText_writeText hwrite⟩

/-! ## Runs -/

/-- What the units that were generated, each with its path, have of a directory. -/
structure Keeps (o : DirectoryOutput) (made : List (GeneratedUnit × FilePath)) : Prop where
  /-- Units share a path when their directories are the same and their names do not differ in
  snake case. -/
  samePath : ∀ a ∈ made, ∀ b ∈ made, a.2.same b.2 ↔
    (o.root.join (unitDirectory a.1.packageName)).same
      (o.root.join (unitDirectory b.1.packageName)) ∧
    snakeCase a.1.unitName = snakeCase b.1.unitName
  /-- The unit that was generated last at a place has its source there. -/
  source : ∀ earlier u path later, made = earlier ++ (u, path) :: later →
    (∀ b ∈ later, lexicalPlace o.files.workingDirectory b.2 ≠
      lexicalPlace o.files.workingDirectory path) →
    HasSource o.files path u.source ∧
      ∀ files manifest, o.finish = .ok (files, manifest) → HasSource files path u.source
  /-- The unit that was generated last at a path has its entry in the manifest. -/
  entry : ∀ earlier u path later, made = earlier ++ (u, path) :: later →
    (∀ b ∈ later, ¬ b.2.same path) →
    .of u.toText ∈ o.entries ∧
      ∀ files m, o.finish = .ok (files, m) → files.readText m = .ok (manifest o.entries).pretty

theorem keeps_of_trail {p q : Processor DirectoryOutput} {xs : List (Point DirectoryOutput)}
    (ht : Trail host p xs q) : q.world.Keeps (generatedIn xs) := by
  have hp : Within p.world.root p.world.files.workingDirectory p.world := ⟨rfl, rfl⟩
  have hq := within_keeps ht hp
  refine ⟨fun a ha b hb => ?_, fun earlier u path later hxs hlater => ?_,
    fun earlier u path later hxs hlater => ?_⟩
  · rw [path_of_mem ht hp ha, path_of_mem ht hp hb, hq.root]
    exact same_unitPath _ _ _ _ _
  · obtain ⟨s, after, hafter, rfl, hs, hpath, hsource, -⟩ := after_generated ht hp hxs
    have hkept : HasSource q.world.files path u.source := by
      refine hasSource_keeps hafter hs hsource fun a ha => ?_
      rw [← path_of_mem hafter hs ha, ← hq.workingDirectory]
      exact hlater a ha
    refine ⟨hkept, fun files m hfinish => hkept.of_grows (finish_ok hfinish).1 ?_⟩
    rw [hpath, hq.root]
    exact manifest_place_ne _ _ _ _
  · obtain ⟨s, after, hafter, rfl, hs, hpath, -, hentry⟩ := after_generated ht hp hxs
    have hother : ∀ a ∈ generatedIn after,
        ¬ (unitPath u.packageName u.unitName).same (unitPath a.1.packageName a.1.unitName) := by
      intro a ha hsame
      refine hlater a ha ?_
      rw [path_of_mem hafter hs ha, hpath]
      exact FilePath.same_symm (FilePath.same_join p.world.root hsame)
    have hkept := entry_keeps (u := u.toText) hafter hentry hother
    exact ⟨mem_of_findByPath hkept, fun files m hfinish => (finish_ok hfinish).2.2⟩

end DirectoryOutput

/-! ## Memory -/

namespace Recording

variable {s : Recording}

/-- What writing a unit can do. -/
inductive Writing (s : Recording) (u : UnitText) : Recording × Except Failure WriteOutcome → Prop
  | upToDate (there : s.output.source? u.package u.unit = some u.source) :
      Writing s u (s, .ok (.upToDate (unitPath u.package u.unit)))
  | refused (f : Failure) : Writing s u (s, .error f)
  | written :
      Writing s u ({ s with output := s.output.store (unitPath u.package u.unit) u },
        .ok (.written (unitPath u.package u.unit)))

theorem write_cases (s : Recording) (u : UnitText) : Writing s u (host.write u s) := by
  simp only [host, MemoryOutput.write]
  split
  · exact .refused _
  · split
    · rename_i hsource
      refine .upToDate ?_
      unfold MemoryOutput.source?
      cases hfound : findByPath (unitPath u.package u.unit) s.output.units with
      | none => rw [hfound] at hsource; cases hsource
      | some unit =>
        rw [hfound] at hsource
        rw [Option.map_some, of_decide_eq_true hsource]
    · exact .written

/-- A unit is there once it was written. -/
theorem accepted_source {s' : Recording} {u : UnitText} {outcome : WriteOutcome}
    (h : host.write u s = (s', .ok outcome)) :
    outcome.path = unitPath u.package u.unit ∧
      s'.output.source? u.package u.unit = some u.source := by
  have hc := s.write_cases u
  rw [h] at hc
  cases hc with
  | upToDate there => exact ⟨by rw [WriteOutcome.path], there⟩
  | written =>
    refine ⟨by rw [WriteOutcome.path], ?_⟩
    rw [MemoryOutput.source?, MemoryOutput.store, findByPath_insert_self]
    rfl

/-- A unit stays unless another one is written at its path. -/
theorem source_keeps {package unit source : String} {p q : Processor Recording}
    {xs : List (Point Recording)} (ht : Trail host p xs q)
    (hsource : p.world.output.source? package unit = some source)
    (hxs : ∀ a ∈ generatedIn xs,
      ¬ (unitPath package unit).same (unitPath a.1.packageName a.1.unitName)) :
    q.world.output.source? package unit = some source := by
  let K (s : Recording) : Prop := s.output.source? package unit = some source
  let clash (v : UnitText) : Prop := (unitPath package unit).same (unitPath v.package v.unit)
  suffices hK : K q.world from hK
  refine ht.keeps clash (fun e w hw => hw) (fun v w w' f hw he => ?_)
    (fun v w w' o hw hclash he => ?_) hxs hsource
  · have hc := w.write_cases v
    rw [he] at hc
    cases hc with
    | refused => exact hw
  · have hc := w.write_cases v
    rw [he] at hc
    cases hc with
    | upToDate there => exact hw
    | written =>
      show (findByPath _ (insertByPath _ _ w.output.units)).map _ = _
      rw [findByPath_insert_other hclash]
      exact hw

/-- What the units that were generated, each with its path, have of a memory. -/
structure Keeps (s : Recording) (made : List (GeneratedUnit × FilePath)) : Prop where
  /-- Units share a path when their directories are the same and their names do not differ in
  snake case. -/
  samePath : ∀ a ∈ made, ∀ b ∈ made, a.2.same b.2 ↔
    (unitDirectory a.1.packageName).same (unitDirectory b.1.packageName) ∧
    snakeCase a.1.unitName = snakeCase b.1.unitName
  /-- The unit that was generated last at a path is there. -/
  source : ∀ earlier u path later, made = earlier ++ (u, path) :: later →
    (∀ b ∈ later, ¬ b.2.same path) →
    s.output.source? u.packageName u.unitName = some u.source

theorem path_of_mem {p q : Processor Recording} {xs : List (Point Recording)}
    (ht : Trail host p xs q) {a : GeneratedUnit × FilePath} (ha : a ∈ generatedIn xs) :
    a.2 = unitPath a.1.packageName a.1.unitName := by
  obtain ⟨earlier, later, hsplit⟩ := List.append_of_mem ha
  obtain ⟨_, x, w, _, o, _, hwrite, hpath, -⟩ := ht.split_generated hsplit
  rw [← hpath, (accepted_source hwrite).1]
  rfl

theorem keeps_of_trail {p q : Processor Recording} {xs : List (Point Recording)}
    (ht : Trail host p xs q) : q.world.Keeps (generatedIn xs) := by
  refine ⟨fun a ha b hb => ?_, fun earlier u path later hxs hlater => ?_⟩
  · rw [path_of_mem ht ha, path_of_mem ht hb]
    have hsame := same_unitPath ⟨""⟩ a.1.packageName b.1.packageName a.1.unitName b.1.unitName
    rwa [FilePath.empty_join, FilePath.empty_join, FilePath.empty_join, FilePath.empty_join]
      at hsame
  · obtain ⟨_, x, w, e, o, after, hwrite, rfl, hworld, -, hafter, rfl⟩ :=
      ht.split_generated hxs
    obtain ⟨hpath, hsource⟩ := accepted_source hwrite
    refine source_keeps hafter (by rw [hworld]; exact hsource) fun a ha hsame => ?_
    refine hlater a ha ?_
    rw [path_of_mem hafter ha, hpath]
    exact FilePath.same_symm hsame

end Recording

/-! ## Requests -/

/-- **What is left of the units.** After every sequence of requests, units that were generated
share a path exactly when their directories are the same and their names do not differ in snake
case; the one that was generated last at a path is still there, source and manifest entry. -/
theorem generated_units_kept (c : Config) (qs : List Request) :
    (∀ o : DirectoryOutput,
      let run := Request.serveAll DirectoryOutput.host (.start c o) qs
      run.1.world.Keeps (generatedIn run.2)) ∧
    ∀ s : Recording,
      let run := Request.serveAll Recording.host (.start c s) qs
      run.1.world.Keeps (generatedIn run.2) :=
  ⟨fun _ => DirectoryOutput.keeps_of_trail (Request.serveAll_trail _ _ _),
    fun _ => Recording.keeps_of_trail (Request.serveAll_trail _ _ _)⟩

/-- A marked trait without members. -/
def bareService (name : String) : Source.Trait where
  attrs := [⟨.single "remote_service", []⟩]
  vis := .inherited
  unchecked := false
  auto := false
  name := name
  line := 1
  generics := ⟨false, [], false, none⟩
  supertraits := ["Send", "Sync"].map fun n => .trait false false none (.single n)
  trailing := false
  members := []

/-- Two services of one file whose names do not differ in snake case. -/
def twins : Universe :=
  ⟨[⟨⟨"api.rs"⟩, modulePath ⟨"api.rs"⟩, ⟨["FooBar", "Foo_Bar"].map (.trait <| bareService ·)⟩⟩], []⟩

/-- Both services are generated, at one path. -/
theorem twins_share_path :
    (generatedIn (Request.serveAll Recording.host (.start .default (.start none))
        [.round twins []]).2).map (fun a => (a.1.qualifiedName, a.2)) =
      [("crate::api::FooBar", ⟨"api/foo_bar_dsl_extensions.rs"⟩),
        ("crate::api::Foo_Bar", ⟨"api/foo_bar_dsl_extensions.rs"⟩)] := by
  decide +kernel

end WrapperGen
