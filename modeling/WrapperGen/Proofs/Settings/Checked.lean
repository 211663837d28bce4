import Mathlib.Data.List.Find
import WrapperGen.Command.Build
import WrapperGen.Command.Scan
import WrapperGen.Proofs.Settings.Nearest
import WrapperGen.Proofs.Types.Operations
import WrapperGen.Proofs.Types.WrapperPaths
/-!
# Settings that were checked

A command reads the sources with settings that passed their check (`Config.IsChecked`): a file's
settings are checked when it is read (`Config.ofFile_ok`), and the default ones pass. Only a build
can be handed settings as they are, which nobody checks (`sources_read_with_checked`).
-/

namespace WrapperGen

open Files Source

namespace Config

variable {c : Config} {fs : FileSystem}

/-- Settings that pass their check. What stands in them is then what it is taken for; the default
path of the runtime does not take the place of another one. -/
structure IsChecked (c : Config) : Prop where
  passes : c.problems = []
  marker : isOk (parseName c.marker)
  unitSuffix : isOk (parseName c.unitSuffix)
  runtime : Path.parse c.runtimePath = .ok c.runtime

theorem runtime_of_isOk (h : isOk (Path.parse c.runtimePath)) :
    Path.parse c.runtimePath = .ok c.runtime := by
  unfold runtime
  cases hread : Path.parse c.runtimePath with
  | ok p => rfl
  | error e =>
    rw [hread] at h
    cases h

/-- Nothing is said about a text that is no path. -/
theorem runtime_of_not_isOk (h : ¬ isOk (Path.parse c.runtimePath)) :
    c.runtime = ⟨true, [.plain "svcwrap"]⟩ := by
  unfold runtime
  cases hread : Path.parse c.runtimePath with
  | ok p =>
    rw [hread] at h
    exact absurd rfl h
  | error e => rfl

theorem isChecked_iff : c.IsChecked ↔ c.problems = [] := by
  refine ⟨IsChecked.passes, fun h => ?_⟩
  have hparts := h
  simp only [problems, List.append_eq_nil_iff] at hparts
  obtain ⟨⟨⟨⟨⟨⟨⟨⟨hmarker, hsuffix⟩, hruntime⟩, -⟩, -⟩, -⟩, -⟩, -⟩, -⟩ := hparts
  exact ⟨h, (textProblems_eq_nil.1 hmarker).2, (textProblems_eq_nil.1 hsuffix).2,
    runtime_of_isOk (textProblems_eq_nil.1 hruntime).2⟩

theorem default_isChecked : IsChecked default :=
  isChecked_iff.2 default_problems

theorem parse_ok {text : String} (h : parse text = .ok c) : c.IsChecked := by
  unfold parse at h
  split at h
  · cases h
  · split at h
    · rename_i hproblems
      cases h
      exact isChecked_iff.2 hproblems
    · cases h

theorem ofFile_ok {p : FilePath} (h : ofFile fs p = .ok c) : c.IsChecked := by
  unfold ofFile at h
  split at h
  · cases h
  · exact parse_ok h

/-- Whatever is found, it was checked. -/
theorem locate_isChecked (fs : FileSystem) (start : FilePath) :
    (locate fs start).config.IsChecked := by
  rw [locate_eq]
  cases hfound : (candidates start).findSome? (usable? fs) with
  | none => exact default_isChecked
  | some found =>
    obtain ⟨q, -, hq⟩ := List.exists_of_findSome?_eq_some hfound
    exact ofFile_ok (usable?_eq_some.1 hq).2

end Config

namespace Command

variable {fs : FileSystem} {source : FilePath}

theorem settings_ok {named : Option FilePath} {c : Config} (h : settings fs source named = .ok c) :
    c.IsChecked := by
  unfold settings at h
  split at h
  · rename_i p
    cases hfile : Config.ofFile fs p with
    | error e =>
      rw [hfile] at h
      cases h
    | ok d =>
      rw [hfile] at h
      cases h
      exact Config.ofFile_ok hfile
  · cases h
    exact Config.locate_isChecked fs source

/-- Settings that a build is handed are taken as they are. -/
theorem buildSettings_ok {o : BuildOptions} {located : Config.Located}
    (h : buildSettings fs source o = .ok located) :
    located.config.IsChecked ↔ ∀ c ∈ o.config, c.problems = [] := by
  unfold buildSettings at h
  cases hgiven : o.config with
  | some c =>
    rw [hgiven] at h
    cases h
    simp [Config.isChecked_iff]
  | none =>
    rw [hgiven] at h
    simp only [Option.mem_def, reduceCtorEq, false_implies, implies_true, iff_true]
    cases hpath : o.configPath with
    | none =>
      rw [hpath] at h
      cases h
      exact Config.locate_isChecked fs source
    | some p =>
      rw [hpath] at h
      obtain ⟨c, hread, h⟩ := bind_ok h
      cases h
      exact settings_ok hread

theorem prepare_ok {env : BuildEnvironment} {o : BuildOptions} {out : FilePath}
    {located : Config.Located} (h : prepare fs env o = .ok (source, out, located)) :
    buildSettings fs source o = .ok located := by
  obtain ⟨source', -, h⟩ := bind_ok h
  obtain ⟨out', -, h⟩ := bind_ok h
  obtain ⟨located', hsettings, h⟩ := bind_ok h
  cases h
  exact hsettings

/-- **Sources are read with checked settings.** A command stops before it reads anything, or it goes
on with settings that passed their check, unless a build was handed others. -/
theorem sources_read_with_checked (fs : FileSystem) :
    (∀ env o, match prepare fs env o with
      | .error h => build fs env o = .halted fs h
      | .ok (source, out, located) =>
        (∃ lines, build fs env o =
          (generateInto fs source out located.config o.directives).after lines) ∧
        (located.config.IsChecked ↔ ∀ c ∈ o.config, c.problems = [])) ∧
    (∀ o : GenerateOptions, match settings fs o.source o.config with
      | .error h => generate fs o = .halted fs h
      | .ok c => (generate fs o).files = (generateInto fs o.source o.out c false).files ∧
        c.IsChecked) ∧
    ∀ o : ScanOptions, match settings fs o.source o.config with
      | .error h => scanSources fs o = .halted fs h
      | .ok c => (scanSources fs o).answer = (loadSources fs o.source c).map (scanReport c) ∧
        c.IsChecked := by
  refine ⟨fun env o => ?_, fun o => ?_, fun o => ?_⟩
  · unfold build
    cases hprepared : prepare fs env o with
    | error h => rfl
    | ok prepared =>
      obtain ⟨source, out, located⟩ := prepared
      exact ⟨⟨_, rfl⟩, buildSettings_ok (prepare_ok hprepared)⟩
  · unfold generate
    cases hsettings : settings fs o.source o.config with
    | error h => rfl
    | ok c =>
      refine ⟨?_, settings_ok hsettings⟩
      dsimp only
      split <;> rfl
  · unfold scanSources
    cases hsettings : settings fs o.source o.config with
    | error h => rfl
    | ok c =>
      refine ⟨?_, settings_ok hsettings⟩
      simp only [bind, Except.bind, pure, Except.pure]
      cases loadSources fs o.source c <;> rfl

/-- A source with one service. -/
def oneService : FileSystem where
  entries := [(["src"], .directory), (["src", "api.rs"],
    .file (.text "#[remote_service]\ntrait Api: Send + Sync {}\n"))]
  workingDirectory := []

/-- Settings whose path of the runtime is none. -/
def pathless : Config := { Config.default with runtimePath := "not a path" }

def handedPathless : BuildOptions := ⟨some ⟨"src"⟩, some ⟨"out"⟩, some pathless, none, false⟩

/-- The sources are read with what the build was handed, and the units are written for the default
runtime. -/
theorem unchecked_settings_taken :
    prepare oneService ⟨none, none⟩ handedPathless =
        .ok (⟨"src"⟩, ⟨"out"⟩, ⟨pathless, none⟩) ∧
      pathless.problems ≠ [] ∧ ¬ Config.isOk (Path.parse pathless.runtimePath) ∧
      pathless.runtime = ⟨true, [.plain "svcwrap"]⟩ ∧
      (build oneService ⟨none, none⟩ handedPathless).answer =
        .ok ⟨2, [⟨"crate::api::Api", "ApiDslExtensions",
          ⟨"out/api/api_dsl_extensions.rs"⟩, true⟩], [], [], [], []⟩ := by
  have hpath : ¬ Config.isOk (Path.parse pathless.runtimePath) := by decide +kernel
  refine ⟨by decide +kernel, by decide +kernel, hpath, Config.runtime_of_not_isOk hpath, ?_⟩
  decide +kernel

end Command

end WrapperGen
