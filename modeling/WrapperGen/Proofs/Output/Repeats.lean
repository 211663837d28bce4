import WrapperGen.Proofs.Files.Directories
import WrapperGen.Proofs.Output.Kept
/-!
# Writing units again

Writing a unit again, over the files that are there at the end, has the result that it had before,
but nothing is written (`Repeats`):

* `repeats_of_accepted`: a unit that was accepted is up to date as long as its source is there.
* `repeats_of_refused`: a unit that was refused is refused again, since what kept it from being
  written stays (`Refusal`).
-/

namespace WrapperGen

open Files Text

namespace WriteOutcome

/-- The outcome of writing the same again. -/
def again (o : WriteOutcome) : WriteOutcome := .upToDate o.path

end WriteOutcome

namespace DirectoryOutput

variable {o o' : DirectoryOutput} {files files' : FileSystem} {u : UnitText} {target : FilePath}
  {e : IoError}

/-! ## The path of a unit -/

theorem target_endsIn (o : DirectoryOutput) (u : UnitText) :
    (o.target u).EndsIn (unitFile u.unit) :=
  ((FilePath.endsIn_name _).join _).join _

theorem target_components (o : DirectoryOutput) (u : UnitText) :
    (o.target u).components =
      (o.root.join (unitDirectory u.package)).components ++ [.normal (unitFile u.unit)] :=
  FilePath.components_join_join_name _ _ (unitFile_isName u.unit)

/-- The directory of a unit's file. -/
theorem target_parent (o : DirectoryOutput) (u : UnitText) :
    ∃ q last, (o.target u).parent? = some q ∧ q.IsParent (o.target u) last := by
  have hsteps : (o.target u).steps ≠ [] :=
    FilePath.steps_ne_nil (show Component.normal (unitFile u.unit) ∈ _ by
      rw [target_components]
      simp)
  cases hparent : (o.target u).parent? with
  | none => exact absurd (FilePath.parent?_none hparent) hsteps
  | some q =>
    obtain ⟨last, hq⟩ := FilePath.parent?_some hparent hsteps
    exact ⟨q, last, rfl, hq⟩

theorem makeParent_of_parent {q : FilePath} (h : target.parent? = some q) :
    makeParent files target = files.makeDirectories q := by
  rw [makeParent, h]

/-! ## Trees -/

theorem makeParent_isTree (h : files.IsTree) (target : FilePath) :
    (makeParent files target).1.IsTree := by
  unfold makeParent
  split
  · exact h.makeDirectories _
  · exact h

theorem write_isTree (h : o.files.IsTree) (u : UnitText) : (o.write u).1.files.IsTree := by
  have hparent := makeParent_isTree h (o.target u)
  have hsteps := o.write_steps u
  generalize o.write u = x at hsteps ⊢
  cases hsteps with
  | upToDate =>
    rw [record_files]
    exact h
  | noParent _ parent => rwa [parent] at hparent
  | refused _ parent => rwa [parent] at hparent
  | written _ parent write =>
    rw [parent] at hparent
    rw [record_files]
    exact hparent.write write

/-! ## Refusals -/

/-- What keeps a unit from being written to a file. -/
inductive Refusal (files : FileSystem) (target : FilePath) : IoError → Prop
  | directory {q : FilePath} {e : IoError} (parent : target.parent? = some q)
      (barred : files.Barred q e) : Refusal files target e
  | file {q : FilePath} {e : IoError} (parent : target.parent? = some q)
      (made : q.text = "" ∨ files.isDirectory q) (unwritable : files.Unwritable target e) :
      Refusal files target e

theorem Refusal.of_grows {touched : Place → Prop} (h : Refusal files target e)
    (hg : FileSystem.Grows touched files files') : Refusal files' target e := by
  cases h with
  | directory hparent hbarred => exact .directory hparent (hbarred.of_grows hg)
  | file hparent hmade hunwritable =>
    exact .file hparent (hmade.imp_right (FileSystem.isDirectory_of_grows · hg))
      (hunwritable.of_grows hg)

/-- Why a unit was refused, in a tree and below a directory without `..`. -/
theorem refusal_of_write {f : Failure} (htree : o.files.IsTree)
    (hparents : .parent ∉ (o.root.join (unitDirectory u.package)).components)
    (h : o.write u = (o', .error f)) :
    ∃ e, f = .writeFailed u.unit e ∧ Refusal o'.files (o.target u) e := by
  obtain ⟨q, last, hparent, hq⟩ := o.target_parent u
  have hname := unitFile_isName u.unit
  have htrimmed := (o.target_endsIn u).isTrimmed hname
  have hforward : .parent ∉ (o.target u).components := by
    rw [target_components]
    simpa using hparents
  have hsteps := o.write_steps u
  rw [h] at hsteps
  cases hsteps with
  | noParent _ parent =>
    rw [makeParent_of_parent hparent] at parent
    exact ⟨_, rfl, .directory hparent
      (FileSystem.makeDirectories_barred htree hq.trimmed (hq.noParents hforward) parent)⟩
  | refused _ parent write =>
    have hgrows := makeParent_grows o.files (o.target u) fun _ => False
    rw [parent] at hgrows
    rw [makeParent_of_parent hparent] at parent
    have hthere := FileSystem.makeUpTo_made parent
    have horigin := hgrows.directory _ (htree.origin (o.target u))
    rw [← FileSystem.origin_of_grows hgrows] at horigin
    exact ⟨_, rfl, .file hparent hthere (.of_writeText
      ((o.target_endsIn u).not_endsInSlash hname)
      (FileSystem.newPlace_below_directory hq htrimmed horigin hthere) write)⟩

/-- The unit is refused again, and no file changes. -/
theorem Refusal.write (h : Refusal o.files (o.target u) e)
    (horigin : o.files.node? (o.files.origin (o.target u)) = some .directory) :
    o.write u = (o, .error (.writeFailed u.unit e)) := by
  have hstale : isUpToDate o.files (o.target u) u.source = false := by
    obtain ⟨e', hread⟩ : ∃ e', o.files.readText (o.target u) = .error e' := by
      cases h with
      | @directory q _ parent barred =>
        obtain ⟨q', last, hparent, hq⟩ := o.target_parent u
        obtain rfl : q = q' := Option.some.inj (parent.symm.trans hparent)
        exact FileSystem.readText_below_barred hq
          ((o.target_endsIn u).isTrimmed (unitFile_isName u.unit)) horigin barred
      | file _ _ unwritable => exact unwritable.readText
    rw [isUpToDate, hread]
  unfold DirectoryOutput.write
  dsimp only
  rw [if_neg (by simp [hstale])]
  cases h with
  | directory parent barred => rw [makeParent_of_parent parent, barred.makeDirectories]
  | file parent made unwritable =>
    rw [makeParent_of_parent parent, FileSystem.makeDirectories_of_isDirectory made]
    dsimp only
    rw [unwritable.writeText]

/-! ## Repetition -/

/-- An output over other files that has written the same units. -/
structure Retraces (files : FileSystem) (o o' : DirectoryOutput) : Prop where
  files : o'.files = files
  root : o'.root = o.root
  units : o'.units = o.units

/-- Over the files, writing the unit again changes no file and has the same result. -/
def Repeats (files : FileSystem) (o : DirectoryOutput) (u : UnitText) : Prop :=
  ∀ o', Retraces files o o' → Retraces files (o.write u).1 (o'.write u).1 ∧
    (o'.write u).2 = (o.write u).2.map WriteOutcome.again

theorem Retraces.print (h : Retraces files o o') (lines lines' : List String) :
    Retraces files (o.print lines) (o'.print lines') :=
  ⟨by rw [print_files, h.files], by rw [print_root, print_root, h.root],
    by rw [print_units, print_units, h.units]⟩

theorem Retraces.record (h : Retraces files o o') (u : UnitText) :
    Retraces files (o.record u) (o'.record u) :=
  ⟨by rw [record_files, h.files], by rw [record_root, record_root, h.root],
    by rw [record_units, record_units, h.units]⟩

theorem Retraces.target_eq (h : Retraces files o o') (u : UnitText) : o'.target u = o.target u := by
  rw [DirectoryOutput.target, DirectoryOutput.target, h.root]

/-- A unit whose source is there is up to date. -/
theorem repeats_of_accepted {w : WriteOutcome} (h : o.write u = (o', .ok w))
    (hsource : HasSource files (o.target u) u.source) : Repeats files o u := by
  intro o₂ hretraces
  have hagain : o₂.write u = (o₂.record u, .ok (.upToDate (o.target u))) := by
    unfold DirectoryOutput.write
    dsimp only
    rw [hretraces.target_eq, hretraces.files, if_pos (isUpToDate_iff.2 hsource)]
  have hsteps := o.write_steps u
  rw [hagain, h]
  rw [h] at hsteps
  cases hsteps with
  | upToDate =>
    refine ⟨hretraces.record u, ?_⟩
    simp only [Except.map, WriteOutcome.again, WriteOutcome.path]
  | @written _ above =>
    have habove : Retraces files { o with files := above } o₂ :=
      ⟨hretraces.files, hretraces.root, hretraces.units⟩
    refine ⟨habove.record u, ?_⟩
    simp only [Except.map, WriteOutcome.again, WriteOutcome.path]

/-- A unit is refused again as long as the reason is there. -/
theorem repeats_of_refused (h : o.write u = (o', .error (.writeFailed u.unit e)))
    (horigin : files.node? (files.origin (o.target u)) = some .directory)
    (hrefusal : Refusal files (o.target u) e) : Repeats files o u := by
  intro o₂ hretraces
  rw [← hretraces.target_eq, ← hretraces.files] at horigin hrefusal
  have hsteps := o.write_steps u
  rw [hrefusal.write horigin, h]
  rw [h] at hsteps
  refine ⟨?_, rfl⟩
  cases hsteps with
  | noParent | refused => exact ⟨hretraces.files, hretraces.root, hretraces.units⟩

end DirectoryOutput

end WrapperGen
