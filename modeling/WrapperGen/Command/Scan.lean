import WrapperGen.Command.Generate
/-!
# Scanning

Shows the services below a source directory without generating anything.
-/

namespace WrapperGen.Command

open Files

def operationLine (o : Operation) : String :=
  let parameters := ", ".intercalate (o.parameters.map fun p => p.name ++ ": " ++ p.ty.render)
  "  " ++ o.name ++ "(" ++ parameters ++ ") [" ++ o.shape.label ++ "] " ++ o.payload.render

def interfaceLines (i : Interface) : List String :=
  (i.qualifiedName ++ " (" ++ i.origin.text ++ ")") :: i.operations.map operationLine

def omissionLine (kind : String) (o : Omission) : String :=
  kind ++ " " ++ o.name ++ ": " ++ o.reason

def scanLines (r : ScanReport) : List String :=
  r.interfaces.flatMap interfaceLines ++ r.deferred.map (omissionLine "deferred") ++
    r.aborted.map (omissionLine "aborted")

structure ScanOptions where
  source : FilePath
  config : Option FilePath
  json : Bool
deriving DecidableEq, Repr

def scanSources (files : FileSystem) (options : ScanOptions) : Outcome ScanReport :=
  let report : Except Halt ScanReport := do
    let c ← settings files options.source options.config
    return scanReport c (← loadSources files options.source c)
  match report with
  | .error h => .halted files h
  | .ok r => ⟨files, if options.json then [r.json.pretty] else scanLines r, .ok r⟩

end WrapperGen.Command
