import WrapperGen.Config.Load
import WrapperGen.Files.FileSystem
/-!
# Finding settings

The settings of a directory are those of the nearest settings file at or above it that can be
read and is valid.
-/

namespace WrapperGen.Config

open Files

/-- The number of directories that are searched. -/
def searchDepth : Nat := 10

/-- The settings of a file, or what is wrong with it. -/
def ofFile (fs : FileSystem) (p : FilePath) : Except String Config :=
  match fs.readText p with
  | .error e => .error ("Failed to read " ++ p.text ++ ": " ++ e.text)
  | .ok text => parse text

/-- The settings of a file that can be used. -/
def usable? (fs : FileSystem) (p : FilePath) : Option (Config × FilePath) :=
  match ofFile fs p with
  | .ok c => some (c, p)
  | .error _ => none

structure Located where
  config : Config
  /-- The file that the settings are from; without one they are the default settings. -/
  path : Option FilePath
deriving DecidableEq, Repr

def locate (fs : FileSystem) (start : FilePath) : Located :=
  let files := (start.ancestors searchDepth).map (·.join ⟨fileName⟩)
  match files.findSome? (usable? fs) with
  | some (c, p) => ⟨c, some p⟩
  | none => ⟨default, none⟩

/-- The settings that hold in the working directory. -/
def ofWorkingDirectory (fs : FileSystem) : Config :=
  (locate fs ⟨"/" ++ "/".intercalate fs.workingDirectory⟩).config

end WrapperGen.Config
