import WrapperGen.Config.Settings
import WrapperGen.Files.Glob
import WrapperGen.Text.Quote
/-!
# Checking settings

`Config.problems` checks everything and gives all that is wrong, in the order of the settings.
-/

namespace WrapperGen

open Source Files

/-- What is wrong with one setting. -/
structure Problem where
  field : String
  message : String
  /-- The value, unless it is missing. -/
  actual : Option String
deriving DecidableEq, Repr

namespace Problem

def text (p : Problem) : String :=
  p.field ++ ": " ++ p.message ++
    match p.actual with
    | some a => " (got: " ++ Text.quote a ++ ")"
    | none => ""

end Problem

namespace Config

def isOk {ε α : Type} : Except ε α → Bool
  | .ok _ => true
  | .error _ => false

/-- A text that must not be empty and must satisfy `ok`. -/
def textProblems (ok : String → Bool) (message field value : String) : List Problem :=
  if value.isEmpty then [⟨field, "must not be empty", none⟩]
  else if ok value then [] else [⟨field, message, some value⟩]

def nameProblems (field value : String) : List Problem :=
  textProblems (isOk <| parseName ·) "must be a Rust identifier" field value

def pathProblems (field value : String) : List Problem :=
  textProblems (isOk <| Path.parse ·) "must be a Rust path" field value

/-- The problems of each element, whose field is `field[index]`. -/
def eachProblems (check : String → String → List Problem) (field : String) (values : List String) :
    List Problem :=
  values.zipIdx.flatMap fun (value, i) => check (field ++ "[" ++ toString i ++ "]") value

def pathListProblems (field : String) (values : List String) : List Problem :=
  (if values.isEmpty then [⟨field, "must list at least one path", none⟩] else []) ++
    eachProblems pathProblems field values

def overlapProblems (c : Config) : List Problem :=
  (c.callWrappers.filter c.responseWrappers.contains).map fun path =>
    ⟨"shapes", "a wrapper cannot be both a call and a response wrapper", some path⟩

def patternProblems (field value : String) : List Problem :=
  match Glob.parse value with
  | .ok _ => []
  | .error e => [⟨field, "invalid glob: " ++ e.message, some value⟩]

def problems (c : Config) : List Problem :=
  nameProblems "generator.marker" c.marker ++
    nameProblems "generator.unit_suffix" c.unitSuffix ++
    pathProblems "generator.runtime_path" c.runtimePath ++
    pathListProblems "shapes.call_wrappers" c.callWrappers ++
    pathListProblems "shapes.response_wrappers" c.responseWrappers ++
    overlapProblems c ++
    (if c.filter = .httpVerb && c.httpVerbs.isEmpty then
      [⟨"operations.http_verbs", "must not be empty when filter is \"http-verb\"", none⟩]
    else []) ++
    eachProblems nameProblems "operations.http_verbs" c.httpVerbs ++
    eachProblems patternProblems "sources.exclude" c.exclude

/-- The default settings pass the check. -/
theorem default_problems : default.problems = [] := by decide +kernel

/-- The settings, or the text of the first problem. -/
def check (c : Config) : Except String Unit :=
  match c.problems with
  | [] => .ok ()
  | p :: _ => .error p.text

end Config

end WrapperGen
