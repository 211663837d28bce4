import WrapperGen.Failure
import WrapperGen.Text.SnakeCase
/-!
# Where units go

A unit is written to a path that follows from its package and its name. Writing tells whether
anything changed.
-/

namespace WrapperGen

open Files

/-- The modules of a package that have a directory: those that are not called `crate`. -/
def unitModules (package : String) : List String :=
  (Text.splitPath package).filter fun s => !s.isEmpty && s != "crate"

/-- The directory of a package's units. -/
def unitDirectory (package : String) : FilePath :=
  (unitModules package).foldl (fun p s => p.join ⟨s⟩) ⟨""⟩

/-- The file of a unit: its name in snake case. -/
def unitFile (unit : String) : String := Text.snakeCase unit ++ ".rs"

/-- The path of a unit below the output directory. -/
def unitPath (package unit : String) : FilePath := (unitDirectory package).join ⟨unitFile unit⟩

inductive WriteOutcome
  | written (path : FilePath)
  | upToDate (path : FilePath)
deriving DecidableEq, Repr

namespace WriteOutcome

def path : WriteOutcome → FilePath
  | written p | upToDate p => p

def isWritten : WriteOutcome → Bool
  | written _ => true
  | upToDate _ => false

end WriteOutcome

/-- What is to be written. -/
structure UnitText where
  package : String
  unit : String
  source : String
  origin : FilePath
deriving DecidableEq, Repr

/-- Inserts into a list that is sorted by path; an entry of the same path keeps its key. -/
def insertByPath {α : Type} (path : FilePath) (value : α) :
    List (FilePath × α) → List (FilePath × α)
  | [] => [(path, value)]
  | (p, v) :: r =>
    match path.compare p with
    | .lt => (path, value) :: (p, v) :: r
    | .eq => (p, value) :: r
    | .gt => (p, v) :: insertByPath path value r

/-- The entry of that path. -/
def findByPath {α : Type} (path : FilePath) (entries : List (FilePath × α)) : Option α :=
  (entries.find? fun (p, _) => p.same path).map (·.2)

end WrapperGen
