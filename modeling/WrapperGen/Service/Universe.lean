import WrapperGen.Failure
import WrapperGen.Source.Parse
/-!
# The universe of sources

All source files that are known at one time, each with its module.
-/

namespace WrapperGen

open Files Source

structure SourceFile where
  path : FilePath
  module : String
  content : File

/-- The files, and why others could not be read. -/
structure Universe where
  files : List SourceFile
  failures : List Failure

/-- The name of a file without `.rs`. -/
def fileStem (name : String) : String :=
  if name.endsWith ".rs" then String.ofList (name.toList.take (name.length - 3)) else name

/-- The module of a source file, whose path is relative to the sources: its directories and its
name, where `mod` and, at the top, `lib` and `main` stand for the directory itself. -/
def modulePath (path : FilePath) : String :=
  let names := path.components.filterMap (·.name?)
  let own := match names.getLast? with
    | none => []
    | some last =>
      let stem := fileStem last
      let isRoot := names.length == 1 && (stem == "lib" || stem == "main")
      if isRoot || stem == "mod" then [] else [stem]
  "::".intercalate ("crate" :: (names.dropLast ++ own))

namespace Universe

def empty : Universe := ⟨[], []⟩

instance : Inhabited Universe := ⟨empty⟩

/-- Reads a file and puts it last, in the place of one of the same path. -/
def add (u : Universe) (path : FilePath) (text : String) : Except Failure Universe :=
  match File.parse text with
  | .error e => .error (.ofSyntax path e)
  | .ok content =>
    let others := u.files.filter (!·.path.same path)
    .ok { u with files := others ++ [⟨path, modulePath path, content⟩] }

/-- The universe of some files, up to the first that cannot be read. -/
def ofSources (sources : List (String × String)) : Except Failure Universe :=
  sources.foldlM (fun u (path, text) => u.add ⟨path⟩ text) empty

/-- Puts a file of the directory `root` last; one that cannot be read is put aside. -/
def addLoaded (u : Universe) (root path : FilePath) (text : String) : Universe :=
  match File.parse text with
  | .error e => { u with failures := u.failures ++ [.ofSyntax path e] }
  | .ok content =>
    let relative := (FilePath.stripBase? root path).getD path
    { u with files := u.files ++ [⟨path, modulePath relative, content⟩] }

end Universe

end WrapperGen
