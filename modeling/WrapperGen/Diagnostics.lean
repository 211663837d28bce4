import WrapperGen.Text.Replace
/-!
# Diagnostics

Messages with a level, in the order in which they were logged.
-/

namespace WrapperGen

inductive Level
  | debug
  | info
  | warn
  | error
deriving DecidableEq, Repr

namespace Level

def rank : Level → Nat
  | debug => 0
  | info => 1
  | warn => 2
  | error => 3

def compare (a b : Level) : Ordering := Ord.compare a.rank b.rank

def label : Level → String
  | debug => "debug"
  | info => "info"
  | warn => "warn"
  | error => "error"

end Level

structure Entry where
  level : Level
  message : String
deriving DecidableEq, Repr

namespace Entry

def messagesAt (level : Level) (entries : List Entry) : List String :=
  (entries.filter (·.level = level)).map (·.message)

/-- Whether some message of the level contains the text. -/
def contains (level : Level) (needle : String) (entries : List Entry) : Bool :=
  (messagesAt level entries).any (Text.contains needle)

/-- The lines in which a build script reports a warning or an error. -/
def cargoLines (e : Entry) : List String :=
  match e.level with
  | .warn | .error =>
    (Text.lines e.message).map fun line =>
      "cargo:warning=svcwrap " ++ e.level.label ++ ": " ++ line
  | _ => []

end Entry

end WrapperGen
