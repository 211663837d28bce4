import WrapperGen.Failure
import WrapperGen.Files.FileSystem
import WrapperGen.Files.IgnoreRules
/-!
# Finding sources

The source files below a directory, without those that ignore files or patterns leave out. The
ignore files of the directories above count as well; those of a repository count only inside it.
-/

namespace WrapperGen.Files

namespace FileSystem

/-! ## Ignore files -/

/-- The rules of the file that the names lead to from a directory. -/
def rulesAt (fs : FileSystem) (directory : Place) (names : List String) : List IgnoreRule :=
  match fs.node? (directory ++ names) with
  | some (.file (.text s)) => ignoreRules s
  | _ => []

/-- A directory and those above it, the innermost first. -/
def placesUpwards (directory : Place) : List Place :=
  (List.range (directory.length + 1)).reverse.map directory.take

def isRepository (fs : FileSystem) (directory : Place) : Bool :=
  (fs.node? (directory ++ [".git"])).isSome

/-- The directories up to the first that is a repository. -/
def upToRepository (fs : FileSystem) : List Place → List Place
  | [] => []
  | d :: ds => if fs.isRepository d then [d] else d :: fs.upToRepository ds

/-- What the innermost of the ignore files that has a rule for a place says. -/
def verdictOf (fs : FileSystem) (names : List String) (isDirectory : Bool) (p : Place)
    (directories : List Place) : Option Verdict :=
  directories.findSome? fun d => verdict? (fs.rulesAt d names) (p.drop d.length) isDirectory

/-- Whether a place itself is ignored. -/
def isIgnored (fs : FileSystem) (p : Place) : Bool :=
  let isDirectory := fs.node? p == some .directory
  let above := placesUpwards p.dropLast
  let inRepository := if above.any fs.isRepository then fs.upToRepository above else []
  let verdict :=
    (fs.verdictOf [".ignore"] isDirectory p above).or
      ((fs.verdictOf [".gitignore"] isDirectory p inRepository).or
        (fs.verdictOf [".git", "info", "exclude"] isDirectory p inRepository))
  verdict == some .ignore

/-- Whether a place, or a directory on the way to it from `root`, is ignored. -/
def isHidden (fs : FileSystem) (root : Place) (names : List String) : Bool :=
  (List.range names.length).any fun n => fs.isIgnored (root ++ names.take (n + 1))

/-! ## Source files -/

def isSource (p : FilePath) : Bool := p.extension? == some "rs"

/-- Whether a pattern matches a file's path, or its path below the root. -/
def isExcluded (patterns : List Glob) (root p : FilePath) : Bool :=
  let relative := (FilePath.stripBase? root p).getD p
  patterns.any fun g => g.matches? relative.text || g.matches? p.text

/-- Inserts into a list that is sorted by components. -/
def insertPath (p : FilePath) : List FilePath → List FilePath
  | [] => [p]
  | q :: qs => if p.compare q == .gt then q :: insertPath p qs else p :: q :: qs

def sortPaths (ps : List FilePath) : List FilePath := ps.foldr insertPath []

/-- All files below `root` that are not ignored, with paths that begin with `root`. -/
def walk (fs : FileSystem) (root : FilePath) : Except IoError (List FilePath) := do
  let p ← fs.place root
  match fs.node? p with
  | none => .error .notFound
  | some (.file _) => .ok [root]
  | some .directory =>
    let names := (fs.filesBelow p).map (·.1)
    .ok ((names.filter (!fs.isHidden p ·)).map fun ns => ns.foldl (fun q n => q.join ⟨n⟩) root)

def walkFailure (root : FilePath) (e : IoError) : Failure :=
  .walk (root.text ++ ": IO error for operation on " ++ root.text ++ ": " ++ e.text)

/-- The source files below `root` that no pattern matches, sorted. -/
def findSources (fs : FileSystem) (root : FilePath) (exclude : List String) :
    Except Failure (List FilePath) := do
  let patterns ← (exclude.mapM Glob.parse).mapError .pattern
  let files ← (fs.walk root).mapError (walkFailure root)
  return sortPaths (files.filter fun p => isSource p && !isExcluded patterns root p)

end FileSystem

end WrapperGen.Files
