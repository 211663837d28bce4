import WrapperGen.Command.Outcome
import WrapperGen.Output.Directory
import WrapperGen.Service.Json
import WrapperGen.Service.Load
/-!
# Generating units

Writes the units of all services below a source directory, and the manifest.
-/

namespace WrapperGen.Command

open Files

def loadSources (files : FileSystem) (source : FilePath) (c : Config) : Except Halt Universe :=
  during ("Failed to load sources from " ++ source.text) (Universe.load files source c.exclude)

/-- Generates units until nothing more gets done. -/
def generateInto (files : FileSystem) (source out : FilePath) (c : Config) (forBuild : Bool) :
    Outcome BuildReport :=
  match loadSources files source c with
  | .error h => .halted files h
  | .ok u =>
    let p := Processor.start c (DirectoryOutput.start files out forBuild)
    match p.runToFixpoint DirectoryOutput.host u with
    | (p, .error text) => ⟨p.world.files, p.world.printed, .error (.panicked text)⟩
    | (p, .ok report) =>
      match p.world.finish with
      | .error e =>
        let h := Halt.failed ("Failed to write manifest to " ++ out.text) (some e.text)
        ⟨(p.world.files.makeDirectories out).1, p.world.printed, .error h⟩
      | .ok (files, _) => ⟨files, p.world.printed, .ok report⟩

/-! ## The report -/

/-- A word at the end of a column. -/
def column (word : String) : String :=
  String.ofList (List.replicate (10 - word.length) ' ') ++ word

def reportLines (r : BuildReport) : List String :=
  let written := r.writtenCount
  (r.generated.map fun g =>
    column (if g.written then "generated" else "unchanged") ++ " " ++ g.qualifiedName ++ " -> " ++
      g.path.text) ++
  (r.deferred.map fun (name, unresolved) =>
    column "deferred" ++ " " ++ name ++ " (unresolved: " ++ ", ".intercalate unresolved ++ ")") ++
  ((r.aborted ++ r.writeFailures).map fun f => column "failed" ++ " " ++ f) ++
  (r.parseFailures.map fun f => column "skipped" ++ " " ++ f) ++
  [toString written ++ " unit(s) written, " ++ toString (r.generated.length - written) ++
    " up to date, " ++ toString r.rounds ++ " round(s)"]

structure GenerateOptions where
  source : FilePath
  out : FilePath
  config : Option FilePath
  json : Bool
deriving DecidableEq, Repr

/-- Generates and reports. It is a failure when some service failed. -/
def generate (files : FileSystem) (options : GenerateOptions) : Outcome BuildReport :=
  match settings files options.source options.config with
  | .error h => .halted files h
  | .ok c =>
    let o := generateInto files options.source options.out c false
    match o.answer with
    | .error _ => o
    | .ok r =>
      let lines := if options.json then [r.json.pretty] else reportLines r
      let failures := r.aborted.length + r.writeFailures.length
      let answer :=
        if r.isSuccess then .ok r
        else .error (.plain (toString failures ++ " interface(s) failed to generate"))
      ⟨o.files, o.printed ++ lines, answer⟩

end WrapperGen.Command
