import WrapperGen.Files.FileSystem
import WrapperGen.Output.Unit
import WrapperGen.Service.Process
import WrapperGen.Text.Json
import WrapperGen.Text.Sha256
/-!
# Units in a directory

Units are written to files below a directory, unless the file has the same content already. A
manifest beside them says which units there are, where each is from and which content it has.
-/

namespace WrapperGen

open Files Text

structure ManifestEntry where
  unit : String
  package : String
  path : FilePath
  origin : FilePath
  sha256 : String
deriving DecidableEq, Repr

/-- The entry of a unit. -/
def ManifestEntry.of (u : UnitText) : ManifestEntry :=
  ⟨u.unit, u.package, unitPath u.package u.unit, u.origin, Text.Sha256.hex u.source⟩

def ManifestEntry.json (e : ManifestEntry) : Json :=
  .object [("unit", .text e.unit), ("package", .text e.package), ("path", .text e.path.text),
    ("origin", .text e.origin.text), ("sha256", .text e.sha256)]

structure DirectoryOutput where
  files : FileSystem
  root : FilePath
  /-- Whether a build tool reads what is printed. -/
  forBuild : Bool
  units : List (FilePath × ManifestEntry)
  /-- The lines that were printed. -/
  printed : List String

namespace DirectoryOutput

def manifestName : String := "svcwrap-manifest.json"

def version : String := "0.1.0"

def start (files : FileSystem) (root : FilePath) (forBuild : Bool) : DirectoryOutput :=
  ⟨files, root, forBuild, [], []⟩

def entries (o : DirectoryOutput) : List ManifestEntry := o.units.map (·.2)

/-- The line that makes a build depend on a path. -/
def dependencyLine (p : FilePath) : String := "cargo:rerun-if-changed=" ++ p.text

def print (o : DirectoryOutput) (lines : List String) : DirectoryOutput :=
  if o.forBuild then { o with printed := o.printed ++ lines } else o

/-! ## Units -/

/-- Notes a unit whose file has its source. -/
def record (o : DirectoryOutput) (u : UnitText) : DirectoryOutput :=
  { o.print [dependencyLine u.origin] with
    units := insertByPath (unitPath u.package u.unit) (.of u) o.units }

/-- Whether a file has the content already. -/
def isUpToDate (files : FileSystem) (target : FilePath) (source : String) : Bool :=
  match files.readText target with
  | .ok existing => Sha256.hex existing == Sha256.hex source
  | .error _ => false

/-- Creates the directory of a file. -/
def makeParent (files : FileSystem) (target : FilePath) : FileSystem × Option IoError :=
  match target.parent? with
  | some p => files.makeDirectories p
  | none => (files, none)

/-- The path of a unit's file. -/
def target (o : DirectoryOutput) (u : UnitText) : FilePath :=
  o.root.join (unitPath u.package u.unit)

def write (o : DirectoryOutput) (u : UnitText) : DirectoryOutput × Except Failure WriteOutcome :=
  let target := o.target u
  if isUpToDate o.files target u.source then (o.record u, .ok (.upToDate target))
  else
    match makeParent o.files target with
    | (files, some e) => ({ o with files := files }, .error (.writeFailed u.unit e))
    | (files, none) =>
      match files.writeText target u.source with
      | .error e => ({ o with files := files }, .error (.writeFailed u.unit e))
      | .ok files => ({ o with files := files }.record u, .ok (.written target))

/-! ## Manifest -/

def manifest (entries : List ManifestEntry) : Json :=
  .object [("generator", .text "svcwrap"), ("version", .text version),
    ("units", .array (entries.map (·.json)))]

/-- Writes the manifest and gives its path. -/
def finish (o : DirectoryOutput) : Except IoError (FileSystem × FilePath) := do
  let files ← o.files.createDirectories o.root
  let path := o.root.join ⟨manifestName⟩
  let files ← files.writeText path (manifest o.entries).pretty
  return (files, path)

/-- A host that writes files; for a build, warnings and errors are printed. -/
def host : Host DirectoryOutput where
  write u o := o.write u
  log e o := o.print e.cargoLines

end DirectoryOutput

end WrapperGen
