import WrapperGen.Command.Generate
import WrapperGen.Command.Init
import WrapperGen.Command.Options
import WrapperGen.Command.Scan
import WrapperGen.Text.Quote
/-!
# The command line

Which command the arguments ask for, and what running it prints.
-/

namespace WrapperGen.Command

open Files

inductive Task
  | generate (o : GenerateOptions)
  | scan (o : ScanOptions)
  | init (o : InitOptions)
deriving DecidableEq, Repr

structure Invocation where
  verbose : Nat
  task : Task
deriving DecidableEq, Repr

/-! ## Reading -/

def helpOption : OptionSpec := ⟨"help", some 'h', .help⟩
def versionOption : OptionSpec := ⟨"version", some 'V', .version⟩
def verboseOption : OptionSpec := ⟨"verbose", some 'v', .counter⟩
def configOption : OptionSpec := ⟨"config", some 'c', .value⟩
def jsonOption : OptionSpec := ⟨"json", none, .switch⟩

def mainSpec : CommandSpec :=
  ⟨[verboseOption, helpOption, versionOption], [], ["generate", "scan", "init", "help"]⟩

def generateSpec : CommandSpec :=
  ⟨[⟨"out", some 'o', .value⟩, configOption, jsonOption, verboseOption, helpOption], ["SOURCE"], []⟩

def scanSpec : CommandSpec :=
  ⟨[configOption, jsonOption, verboseOption, helpOption], ["SOURCE"], []⟩

def initSpec : CommandSpec :=
  ⟨[⟨"force", some 'f', .switch⟩, ⟨"dir", none, .value⟩, verboseOption, helpOption], [], []⟩

/-- The error of a request for help: it names at most one command. -/
def helpFor : List String → UsageError
  | [] => .helpRequested
  | [name] => if mainSpec.subcommands.contains name then .helpRequested else .invalidSubcommand
  | _ => .invalidSubcommand

/-- All arguments of a command. -/
def readAll (s : CommandSpec) (args : List String) : Except UsageError Arguments := do
  return (← Arguments.read s args (.start s)).1

/-- The arguments of a command, and what it is to do. -/
def readTask (name : String) (args : List String) : Except UsageError (Arguments × Task) := do
  match name with
  | "generate" =>
    let a ← readAll generateSpec args
    let source ← a.required "SOURCE"
    let out ← a.required "out"
    return (a, .generate ⟨⟨source⟩, ⟨out⟩, (a.value? "config").map (⟨·⟩), a.hasSwitch "json"⟩)
  | "scan" =>
    let a ← readAll scanSpec args
    let source ← a.required "SOURCE"
    return (a, .scan ⟨⟨source⟩, (a.value? "config").map (⟨·⟩), a.hasSwitch "json"⟩)
  | "init" =>
    let a ← readAll initSpec args
    return (a, .init ⟨⟨(a.value? "dir").getD "."⟩, a.hasSwitch "force"⟩)
  | _ => throw (helpFor args)

/-- Reads the arguments. How verbose to be can be said before the command and after it; what is
said after it counts. -/
def Invocation.read (args : List String) : Except UsageError Invocation := do
  match ← Arguments.read mainSpec args (.start mainSpec) with
  | (a, none) => throw (if a.isEmpty then .nothingGiven else .missingSubcommand)
  | (a, some (name, rest)) =>
    let (own, task) ← readTask name rest
    return ⟨if own.count = 0 then a.count else own.count, task⟩

/-- The least level of the messages that are logged. -/
def defaultFilter (verbose : Nat) : String :=
  match verbose with
  | 0 => "warn"
  | 1 => "info"
  | 2 => "debug"
  | _ => "trace"

/-! ## Showing -/

def quotePath (p : FilePath) : String :=
  let shown (c : Char) := if c = '\x27' then "\\\x27" else Text.quoteChar c
  "\"" ++ String.join (p.text.toList.map shown) ++ "\""

def showOptional : Option FilePath → String
  | some p => "Some(" ++ quotePath p ++ ")"
  | none => "None"

def record (name : String) (fields : List (String × String)) : String :=
  name ++ " \x7b " ++ ", ".intercalate (fields.map fun (n, v) => n ++ ": " ++ v) ++ " \x7d"

namespace Task

/-- The task with all its settings. -/
def text : Task → String
  | generate o => record "Generate" [("source", quotePath o.source), ("out", quotePath o.out),
      ("config", showOptional o.config), ("json", toString o.json)]
  | scan o => record "Scan" [("source", quotePath o.source), ("config", showOptional o.config),
      ("json", toString o.json)]
  | init o => record "Init" [("force", toString o.force), ("dir", quotePath o.dir)]

end Task

/-! ## Running -/

structure Exit where
  code : Nat
  stdout : String
  stderr : String
deriving DecidableEq, Repr

/-- What is printed about a halt: its text, and the cause with each line indented. -/
def errorText (message : String) : Option String → String
  | none => "Error: " ++ message ++ "\n"
  | some cause =>
    "Error: " ++ message ++ "\n\nCaused by:\n    " ++ Text.replaceAll "\n" "\n    " cause ++ "\n"

def exitOf {α : Type} (o : Outcome α) : FileSystem × Exit :=
  (o.files, match o.answer with
    | .ok _ => ⟨0, o.stdout, ""⟩
    | .error (.failed message cause) => ⟨1, o.stdout, errorText message cause⟩
    | .error (.panicked text) => ⟨101, o.stdout, text ++ "\n"⟩)

def Task.run (files : FileSystem) : Task → FileSystem × Exit
  | .generate o => exitOf (Command.generate files o)
  | .scan o => exitOf (scanSources files o)
  | .init o => exitOf (initConfig files o)

def usage : String :=
  "Usage: svcwrap [OPTIONS] <COMMAND>\n\n" ++
  "Commands:\n" ++
  "  generate <SOURCE> -o <OUT> [-c <CONFIG>] [--json]\n" ++
  "  scan <SOURCE> [-c <CONFIG>] [--json]\n" ++
  "  init [-f] [--dir <DIR>]\n"

def UsageError.exit : UsageError → Exit
  | .helpRequested => ⟨0, usage, ""⟩
  | .versionRequested => ⟨0, "svcwrap " ++ DirectoryOutput.version ++ "\n", ""⟩
  | _ => ⟨2, "", usage⟩

/-- Runs the program. -/
def run (files : FileSystem) (args : List String) : FileSystem × Exit :=
  match Invocation.read args with
  | .error e => (files, e.exit)
  | .ok i => i.task.run files

end WrapperGen.Command
