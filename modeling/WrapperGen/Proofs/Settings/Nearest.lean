import Mathlib.Data.List.Find
import WrapperGen.Config.Locate
/-!
# The nearest settings file

The settings of a directory are those of the nearest valid settings file at or above it. That is
not the same as the settings of the nearest settings file, or the default ones where that is
invalid: `located_iff` says which file it is, and `locate_eq_ofNearest_iff` when both agree.
-/

namespace WrapperGen.Config

open Files

variable {fs : FileSystem} {start p : FilePath} {c : Config}

/-- Where settings files are looked for, the nearest first. -/
def candidates (start : FilePath) : List FilePath :=
  (start.ancestors searchDepth).map (·.join ⟨fileName⟩)

/-- The nearest settings file that is there and can be read. -/
def nearest? (fs : FileSystem) (start : FilePath) : Option FilePath :=
  (candidates start).find? fun p => isOk (fs.readText p)

/-- The settings of the nearest file that can be read, and the default ones where it is invalid. -/
def ofNearest (fs : FileSystem) (start : FilePath) : Located :=
  match nearest? fs start with
  | none => ⟨default, none⟩
  | some p =>
    match ofFile fs p with
    | .ok c => ⟨c, some p⟩
    | .error _ => ⟨default, none⟩

/-! ## Usable files -/

theorem usable?_eq_some {q : FilePath} :
    usable? fs q = some (c, p) ↔ q = p ∧ ofFile fs q = .ok c := by
  unfold usable?
  cases hfile : ofFile fs q with
  | error e => simp
  | ok d =>
    rw [Option.some.injEq, Prod.mk.injEq, Except.ok.injEq]
    exact And.comm

theorem usable?_eq_none : usable? fs p = none ↔ ¬ isOk (ofFile fs p) := by
  unfold usable?
  cases ofFile fs p <;> simp [isOk]

theorem isOk_readText_of_ofFile (h : isOk (ofFile fs p)) : isOk (fs.readText p) := by
  unfold ofFile at h
  cases hread : fs.readText p with
  | error e =>
    rw [hread] at h
    cases h
  | ok text => rfl

/-! ## The file that is found -/

theorem locate_eq (fs : FileSystem) (start : FilePath) :
    locate fs start = match (candidates start).findSome? (usable? fs) with
      | some (c, p) => ⟨c, some p⟩
      | none => ⟨default, none⟩ := rfl

/-- The file is the nearest of those that are valid. -/
theorem located_iff : locate fs start = ⟨c, some p⟩ ↔ ∃ nearer farther,
    candidates start = nearer ++ p :: farther ∧ ofFile fs p = .ok c ∧
      ∀ q ∈ nearer, ¬ isOk (ofFile fs q) := by
  rw [locate_eq]
  have hfind : (candidates start).findSome? (usable? fs) = some (c, p) ↔ ∃ nearer farther,
      candidates start = nearer ++ p :: farther ∧ ofFile fs p = .ok c ∧
        ∀ q ∈ nearer, ¬ isOk (ofFile fs q) := by
    rw [List.findSome?_eq_some_iff]
    constructor
    · rintro ⟨nearer, q, farther, hsplit, hq, hnearer⟩
      obtain ⟨rfl, hfile⟩ := usable?_eq_some.1 hq
      exact ⟨nearer, farther, hsplit, hfile, fun r hr => usable?_eq_none.1 (hnearer r hr)⟩
    · rintro ⟨nearer, farther, hsplit, hfile, hnearer⟩
      exact ⟨nearer, p, farther, hsplit, usable?_eq_some.2 ⟨rfl, hfile⟩,
        fun r hr => usable?_eq_none.2 (hnearer r hr)⟩
  rw [← hfind]
  cases (candidates start).findSome? (usable? fs) with
  | none => simp
  | some found => simp [Prod.ext_iff]

theorem locate_eq_default_iff :
    locate fs start = ⟨default, none⟩ ↔ ∀ q ∈ candidates start, ¬ isOk (ofFile fs q) := by
  have hnone : (candidates start).findSome? (usable? fs) = none ↔
      ∀ q ∈ candidates start, ¬ isOk (ofFile fs q) := by
    rw [List.findSome?_eq_none_iff]
    exact forall₂_congr fun q _ => usable?_eq_none
  rw [← hnone, locate_eq]
  cases (candidates start).findSome? (usable? fs) <;> simp

/-! ## The nearest file -/

/-- The nearest file that can be read is found if it is valid. -/
theorem locate_of_nearest (hnearest : nearest? fs start = some p) (hfile : ofFile fs p = .ok c) :
    locate fs start = ⟨c, some p⟩ := by
  obtain ⟨-, nearer, farther, hsplit, hnearer⟩ := List.find?_eq_some_iff_append.1 hnearest
  refine located_iff.2 ⟨nearer, farther, hsplit, hfile, fun q hq hok => ?_⟩
  have hunread := hnearer q hq
  rw [isOk_readText_of_ofFile hok] at hunread
  cases hunread

theorem locate_of_nothing (hnothing : nearest? fs start = none) :
    locate fs start = ⟨default, none⟩ := by
  refine locate_eq_default_iff.2 fun q hq hok => ?_
  exact List.find?_eq_none.1 hnothing q hq (isOk_readText_of_ofFile hok)

/-- **An invalid nearest file is passed over.** What is found is the nearest valid file. These are
the settings of the nearest readable file, or the default ones where it is invalid or missing,
exactly when no valid file lies behind an invalid nearest one. -/
theorem locate_eq_ofNearest_iff (fs : FileSystem) (start : FilePath) :
    (∀ c p, locate fs start = ⟨c, some p⟩ ↔ ∃ nearer farther,
      candidates start = nearer ++ p :: farther ∧ ofFile fs p = .ok c ∧
        ∀ q ∈ nearer, ¬ isOk (ofFile fs q)) ∧
    (locate fs start = ofNearest fs start ↔ ∀ p, nearest? fs start = some p →
      isOk (ofFile fs p) ∨ ∀ q ∈ candidates start, ¬ isOk (ofFile fs q)) := by
  refine ⟨fun c p => located_iff, ?_⟩
  unfold ofNearest
  cases hnearest : nearest? fs start with
  | none => exact ⟨nofun, fun _ => locate_of_nothing hnearest⟩
  | some p =>
    dsimp only
    cases hfile : ofFile fs p with
    | ok c =>
      refine ⟨fun _ q hq => .inl ?_, fun _ => locate_of_nearest hnearest hfile⟩
      rw [← Option.some.inj hq, hfile]
      rfl
    | error e =>
      rw [locate_eq_default_iff]
      refine ⟨fun hnone _ _ => .inr hnone, fun h => (h p rfl).resolve_left ?_⟩
      rw [hfile]
      exact nofun

/-- A settings file without a marker, in a directory below one whose settings file is valid. -/
def unmarkedBelow : FileSystem where
  entries := [([fileName], .file (.text "[generator]\nunit_suffix = \"Wrappers\"\n")),
    (["src"], .directory), (["src", fileName], .file (.text "[generator]\nmarker = \"\"\n"))]
  workingDirectory := []

/-- The farther file is taken, although the nearest one is invalid. -/
theorem farther_file_found :
    nearest? unmarkedBelow ⟨"src"⟩ = some ⟨"src/svcwrap.toml"⟩ ∧
      ofFile unmarkedBelow ⟨"src/svcwrap.toml"⟩ =
        .error "Invalid svcwrap.toml: generator.marker: must not be empty" ∧
      ofNearest unmarkedBelow ⟨"src"⟩ = ⟨.default, none⟩ ∧
      locate unmarkedBelow ⟨"src"⟩ =
        ⟨{ Config.default with unitSuffix := "Wrappers" }, some ⟨"svcwrap.toml"⟩⟩ := by
  decide +kernel

end WrapperGen.Config
