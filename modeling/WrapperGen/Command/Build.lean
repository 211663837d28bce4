import WrapperGen.Command.Generate
/-!
# Generating in a build

What a build script does: directories that are not given are taken from the environment, and what
the build depends on is printed.
-/

namespace WrapperGen.Command

open Files

/-- What a build script gives. -/
structure BuildOptions where
  sourceDir : Option FilePath
  outDir : Option FilePath
  config : Option Config
  configPath : Option FilePath
  directives : Bool

/-- The environment of a build script. -/
structure BuildEnvironment where
  manifestDir : Option String
  outDir : Option String

def required {α : Type} (message : String) : Option α → Except Halt α
  | some a => .ok a
  | none => .error (.failed message (some "environment variable not found"))

/-- The directory of the sources. -/
def sourceDirectory (env : BuildEnvironment) (o : BuildOptions) : Except Halt FilePath :=
  match o.sourceDir with
  | some p => .ok p
  | none => do
    return FilePath.join ⟨← required "CARGO_MANIFEST_DIR is not set" env.manifestDir⟩ ⟨"src"⟩

/-- The directory that the units go to. -/
def outDirectory (env : BuildEnvironment) (o : BuildOptions) : Except Halt FilePath :=
  match o.outDir with
  | some p => .ok p
  | none => do return ⟨← required "OUT_DIR is not set; call out_dir()" env.outDir⟩

/-- The settings and the file that they are from. -/
def buildSettings (files : FileSystem) (source : FilePath) (o : BuildOptions) :
    Except Halt Config.Located :=
  match o.config, o.configPath with
  | some c, _ => .ok ⟨c, none⟩
  | none, some p => do return ⟨← settings files source (some p), some p⟩
  | none, none => .ok (Config.locate files source)

/-- Where the sources are, where the units go, and the settings. -/
def prepare (files : FileSystem) (env : BuildEnvironment) (o : BuildOptions) :
    Except Halt (FilePath × FilePath × Config.Located) := do
  let source ← sourceDirectory env o
  let out ← outDirectory env o
  return (source, out, ← buildSettings files source o)

def build (files : FileSystem) (env : BuildEnvironment) (o : BuildOptions) :
    Outcome BuildReport :=
  match prepare files env o with
  | .error h => .halted files h
  | .ok (source, out, located) =>
    let dependencies := (source :: located.path.toList).map DirectoryOutput.dependencyLine
    (generateInto files source out located.config o.directives).after
      (if o.directives then dependencies else [])

end WrapperGen.Command
