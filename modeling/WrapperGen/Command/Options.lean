/-!
# Reading arguments

A command's arguments are options, which start with dashes, and values for its positions. An
option's value is attached to it or is the next argument. After `--` all arguments are values.
-/

namespace WrapperGen.Command

inductive UsageError
  | missingRequiredArgument
  | unknownArgument
  | invalidSubcommand
  | missingSubcommand
  | invalidValue
  | tooManyValues
  | argumentConflict
  /-- Nothing was given, so the help is shown. -/
  | nothingGiven
  | helpRequested
  | versionRequested
deriving DecidableEq, Repr

/-- What an option does. -/
inductive OptionKind
  | help
  | version
  | counter
  | switch
  | value
deriving DecidableEq, Repr

structure OptionSpec where
  long : String
  short : Option Char
  kind : OptionKind
deriving DecidableEq, Repr

structure CommandSpec where
  options : List OptionSpec
  positions : List String
  subcommands : List String

/-- A value that is still to be checked; an option waits for its value. -/
structure Pending where
  name : String
  value : Option String
deriving DecidableEq, Repr

/-- What was read so far. -/
structure Arguments where
  values : List (String × String)
  switches : List String
  count : Nat
  pending : Option Pending
  /-- The positions that are free. -/
  positions : List String
  onlyValues : Bool
deriving DecidableEq, Repr

namespace Arguments

def start (s : CommandSpec) : Arguments := ⟨[], [], 0, none, s.positions, false⟩

def value? (a : Arguments) (name : String) : Option String :=
  (a.values.find? (·.1 == name)).map (·.2)

def hasSwitch (a : Arguments) (name : String) : Bool := a.switches.contains name

def isEmpty (a : Arguments) : Bool := a.values.isEmpty && a.switches.isEmpty && a.count == 0

/-- Takes a value, which must be the only one of its name and must not be empty. -/
def store (a : Arguments) (name value : String) : Except UsageError Arguments :=
  if (a.value? name).isSome then .error .argumentConflict
  else if value.isEmpty then .error .invalidValue
  else .ok { a with values := a.values ++ [(name, value)] }

/-- Checks the value that was read last. -/
def settle (a : Arguments) : Except UsageError Arguments :=
  match a.pending with
  | none => .ok a
  | some ⟨_, none⟩ => .error .invalidValue
  | some ⟨name, some value⟩ => { a with pending := none }.store name value

/-- The largest number that a counter shows. -/
def maxCount : Nat := 255

/-- An option without a value. -/
def apply (a : Arguments) (o : OptionSpec) : Except UsageError Arguments := do
  let a ← a.settle
  match o.kind with
  | .help => .error .helpRequested
  | .version => .error .versionRequested
  | .counter => .ok { a with count := min maxCount (a.count + 1) }
  | _ =>
    if a.hasSwitch o.long then .error .argumentConflict
    else .ok { a with switches := a.switches ++ [o.long] }

/-- An option whose value is attached, or else comes next. -/
def applyValue (a : Arguments) (o : OptionSpec) (attached : Option String) :
    Except UsageError Arguments := do
  let a ← a.settle
  match attached with
  | some v => a.store o.long v
  | none => .ok { a with pending := some ⟨o.long, none⟩ }

/-! ## Options -/

/-- An argument after its two dashes. -/
def long (a : Arguments) (s : CommandSpec) (cs : List Char) : Except UsageError Arguments :=
  let name := String.ofList (cs.takeWhile (· != '='))
  let attached := match cs.dropWhile (· != '=') with
    | [] => none
    | _ :: v => some (String.ofList v)
  match s.options.find? (·.long == name) with
  | none => .error .unknownArgument
  | some o =>
    if o.kind = .value then a.applyValue o attached
    else if attached.isSome then .error .tooManyValues
    else a.apply o

/-- The letters of an argument with one dash. What follows an option with a value is the value. -/
def shorts (s : CommandSpec) : List Char → Arguments → Except UsageError Arguments
  | [], a => .ok a
  | c :: cs, a =>
    match s.options.find? (·.short == some c) with
    | none => .error .unknownArgument
    | some o =>
      if o.kind = .value then
        a.applyValue o (match cs with
          | [] => none
          | '=' :: v => some (String.ofList v)
          | v => some (String.ofList v))
      else do shorts s cs (← a.apply o)

/-! ## Arguments -/

/-- The error for a value without a position. A command with subcommands expects one instead. -/
def unexpected (a : Arguments) (s : CommandSpec) (arg : String) : UsageError :=
  if s.subcommands.isEmpty || (a.onlyValues && s.subcommands.contains arg) then .unknownArgument
  else .invalidSubcommand

def position (a : Arguments) (s : CommandSpec) (arg : String) : Except UsageError Arguments :=
  match a.positions with
  | [] => .error (a.unexpected s arg)
  | p :: ps => do
    let a ← a.settle
    .ok { a with pending := some ⟨p, some arg⟩, positions := ps }

def add (a : Arguments) (s : CommandSpec) (arg : String) : Except UsageError Arguments :=
  if a.onlyValues then a.position s arg
  else
    match arg.toList with
    | ['-', '-'] => .ok { a with onlyValues := true }
    | '-' :: '-' :: cs => a.long s cs
    | '-' :: c :: cs => shorts s (c :: cs) a
    | _ =>
      match a.pending with
      | some ⟨name, none⟩ => .ok { a with pending := some ⟨name, some arg⟩ }
      | _ => a.position s arg

/-- Reads arguments up to the name of a subcommand, which is given with those after it. -/
def read (s : CommandSpec) :
    List String → Arguments → Except UsageError (Arguments × Option (String × List String))
  | [], a => do return (← a.settle, none)
  | arg :: rest, a =>
    if !a.onlyValues && s.subcommands.contains arg then .ok (a, some (arg, rest))
    else do read s rest (← a.add s arg)

/-- The value of a name that must be given. -/
def required (a : Arguments) (name : String) : Except UsageError String :=
  match a.value? name with
  | some v => .ok v
  | none => .error .missingRequiredArgument

end Arguments

end WrapperGen.Command
