import WrapperGen.Files.FilePath
import WrapperGen.Files.IoError
import WrapperGen.Text.Utf8
/-!
# File systems

Directories and files by place, where a place is the list of names from the root. Paths are
followed name by name, so each part of a path but the last must lead to a directory.
-/

namespace WrapperGen.Files

/-- What a file holds. -/
inductive Content
  | text (s : String)
  /-- Bytes that are no text. -/
  | binary (bytes : List Nat)
deriving DecidableEq, Repr

namespace Content

def ofBytes (bytes : List Nat) : Content :=
  match Text.Utf8.text? bytes with
  | some s => .text s
  | none => .binary bytes

def text? : Content → Option String
  | text s => some s
  | binary _ => none

/-- The content as text, with a sign in the place of each fault. -/
def lossyText : Content → String
  | text s => s
  | binary bytes => Text.Utf8.lossyText bytes

end Content

abbrev Place := List String

/-- Where a component leads when nothing is known about the files. -/
def Component.enter (here : Place) : Component → Place
  | .root | .current => here
  | .parent => here.dropLast
  | .normal name => here ++ [name]

/-- The place of a path when nothing is known about the files. -/
def lexicalPlace (workingDirectory : Place) (p : FilePath) : Place :=
  p.components.foldl Component.enter (if p.isAbsolute then [] else workingDirectory)

inductive Node
  | directory
  | file (content : Content)
deriving DecidableEq, Repr

structure FileSystem where
  /-- What there is below the root, each place once. -/
  entries : List (Place × Node)
  /-- Where relative paths start. -/
  workingDirectory : Place

namespace FileSystem

/-- Nothing but the working directory and those above it. -/
def empty (workingDirectory : Place) : FileSystem where
  entries := (List.range workingDirectory.length).map fun n =>
    (workingDirectory.take (n + 1), .directory)
  workingDirectory := workingDirectory

/-! ## Places -/

def node? (fs : FileSystem) (here : Place) : Option Node :=
  if here.isEmpty then some .directory
  else (fs.entries.find? (·.1 == here)).map (·.2)

/-- Puts a file or directory into its place. -/
def set (fs : FileSystem) (here : Place) (n : Node) : FileSystem :=
  { fs with entries :=
      if (fs.entries.find? (·.1 == here)).isSome then
        fs.entries.map fun old => if old.1 == here then (here, n) else old
      else fs.entries ++ [(here, n)] }

/-- The files of a directory and of those in it: the names that lead to them, and their content. -/
def filesBelow (fs : FileSystem) (root : Place) : List (List String × Content) :=
  fs.entries.filterMap fun (p, e) =>
    match e with
    | .directory => none
    | .file content => if root.isPrefixOf p then some (p.drop root.length, content) else none

/-- The longest name that is possible, in bytes. -/
def maxNameBytes : Nat := 255

/-- Follows one part of a path. -/
def follow (fs : FileSystem) (here : Place) (part : String) : Except IoError Place :=
  match fs.node? here with
  | none => .error .notFound
  | some (.file _) => .error .notADirectory
  | some .directory =>
    if part.isEmpty || part == "." then .ok here
    else if part == ".." then .ok here.dropLast
    else if maxNameBytes < part.utf8ByteSize then .error .nameTooLong
    else .ok (here ++ [part])

/-- The place to which the parts of a path lead. -/
def placeOf (fs : FileSystem) (p : FilePath) (parts : List String) : Except IoError Place :=
  if p.text.isEmpty then .error .notFound
  else if p.text.toList.contains '\x00' then
    .error (.custom "file name contained an unexpected NUL byte")
  else parts.foldlM fs.follow (if p.isAbsolute then [] else fs.workingDirectory)

def pathParts (p : FilePath) : List String :=
  (Text.splitOn ['/'] 0 [] p.text.toList).map String.ofList

/-- The parts without the slashes at the end. -/
def trimmedParts (p : FilePath) : List String :=
  ((pathParts p).reverse.dropWhile (·.isEmpty)).reverse

/-- The place of a path. A slash at its end leads only to a directory. -/
def place (fs : FileSystem) (p : FilePath) : Except IoError Place := fs.placeOf p (pathParts p)

/-- The place of a path that something is to be created at. -/
def newPlace (fs : FileSystem) (p : FilePath) : Except IoError Place :=
  fs.placeOf p (trimmedParts p)

/-- What there is at a path. -/
def find (fs : FileSystem) (p : FilePath) : Except IoError Node := do
  match fs.node? (← fs.place p) with
  | some e => .ok e
  | none => .error .notFound

/-! ## Operations -/

def exists? (fs : FileSystem) (p : FilePath) : Bool :=
  match fs.find p with
  | .ok _ => true
  | .error _ => false

def isDirectory (fs : FileSystem) (p : FilePath) : Bool :=
  match fs.find p with
  | .ok .directory => true
  | _ => false

def readText (fs : FileSystem) (p : FilePath) : Except IoError String := do
  match ← fs.find p with
  | .directory => .error .isADirectory
  | .file (.text s) => .ok s
  | .file (.binary _) => .error .invalidText

/-- Writes a file, in the place of the one that is there. -/
def write (fs : FileSystem) (p : FilePath) (content : Content) : Except IoError FileSystem := do
  let target ← fs.newPlace p
  if p.endsInSlash || fs.node? target == some .directory then .error .isADirectory
  else .ok (fs.set target (.file content))

def writeText (fs : FileSystem) (p : FilePath) (text : String) : Except IoError FileSystem :=
  fs.write p (.text text)

/-- Creates a directory in one that is there. -/
def createDirectory (fs : FileSystem) (p : FilePath) : Except IoError FileSystem := do
  let target ← fs.newPlace p
  match fs.node? target with
  | some _ => .error .exists
  | none => .ok (fs.set target .directory)

/-- Creates a directory unless it is there. -/
def makeDirectory (fs : FileSystem) (p : FilePath) : FileSystem × Option IoError :=
  match fs.createDirectory p with
  | .ok fs => (fs, none)
  | .error e => (fs, if fs.isDirectory p then none else some e)

/-- Creates a directory and the first `n` directories above it that are missing. Those that were
created stay when one below them cannot be created. -/
def makeUpTo (fs : FileSystem) : Nat → FilePath → FileSystem × Option IoError
  | 0, p => fs.makeDirectory p
  | n + 1, p =>
    if p.text.isEmpty then (fs, none)
    else
      match fs.makeDirectory p with
      | (fs, some .notFound) =>
        match p.parent? with
        | none => (fs, some (.custom "failed to create whole tree"))
        | some q =>
          match fs.makeUpTo n q with
          | (fs, none) => fs.makeDirectory p
          | (fs, some e) => (fs, some e)
      | made => made

/-- Creates a directory and those above it, unless they are there. -/
def makeDirectories (fs : FileSystem) (p : FilePath) : FileSystem × Option IoError :=
  fs.makeUpTo (p.components.length + 1) p

/-- The files once a directory is there. -/
def createDirectories (fs : FileSystem) (p : FilePath) : Except IoError FileSystem :=
  match fs.makeDirectories p with
  | (fs, none) => .ok fs
  | (_, some e) => .error e

/-- Creates a directory unless there is something at the path. -/
def ensureDirectory (fs : FileSystem) (p : FilePath) : Except IoError FileSystem :=
  if fs.exists? p then .ok fs else fs.createDirectories p

/-- Removes what is at a path, with all that is in it. -/
def remove (fs : FileSystem) (p : FilePath) : Except IoError FileSystem := do
  let target ← fs.place p
  match fs.node? target with
  | none => .error .notFound
  | some _ => .ok { fs with entries := fs.entries.filter fun e => !target.isPrefixOf e.1 }

end FileSystem

end WrapperGen.Files
