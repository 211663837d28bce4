import WrapperGen.Source.Parse
/-!
# Settings

What can be configured, with the defaults.
-/

namespace WrapperGen

open Source

/-- Which methods of a service become operations. -/
inductive OperationFilter
  /-- Every method without a default body. -/
  | required
  /-- Only methods that carry an HTTP verb as an attribute. -/
  | httpVerb
deriving DecidableEq, Repr

structure Config where
  /-- The attribute that marks a service trait. -/
  marker : String
  /-- The path under which generated code finds its runtime. -/
  runtimePath : String
  /-- What is put behind a trait's name to name its unit. -/
  unitSuffix : String
  callWrappers : List String
  responseWrappers : List String
  filter : OperationFilter
  httpVerbs : List String
  /-- Patterns of files that are not read. -/
  exclude : List String
deriving DecidableEq, Repr

namespace Config

def default : Config where
  marker := "remote_service"
  runtimePath := "::svcwrap"
  unitSuffix := "DslExtensions"
  callWrappers := ["svcwrap::Call", "svcwrap::runtime::Call"]
  responseWrappers := ["svcwrap::Response", "svcwrap::runtime::Response"]
  filter := .required
  httpVerbs := ["get", "post", "put", "delete", "patch", "head", "options"]
  exclude := []

instance : Inhabited Config := ⟨default⟩

def unitName (c : Config) (simpleName : String) : String := simpleName ++ c.unitSuffix

def isHttpVerb (c : Config) (name : String) : Bool := c.httpVerbs.contains name

/-- The runtime's path. A text that is no path stands for the default one. -/
def runtime (c : Config) : Path :=
  match Path.parse c.runtimePath with
  | .ok p => p
  | .error _ => ⟨true, [.plain "svcwrap"]⟩

/-- A settings file that says what holds anyway. -/
def defaultText : String :=
  "# svcwrap configuration\n\n" ++
  "[generator]\n" ++
  "marker = \"remote_service\"\n" ++
  "runtime_path = \"::svcwrap\"\n" ++
  "unit_suffix = \"DslExtensions\"\n\n" ++
  "[shapes]\n" ++
  "call_wrappers = [\"svcwrap::Call\", \"svcwrap::runtime::Call\"]\n" ++
  "response_wrappers = [\"svcwrap::Response\", \"svcwrap::runtime::Response\"]\n\n" ++
  "[operations]\n" ++
  "# \"required\": every method without a default body\n" ++
  "# \"http-verb\": only methods with one of the verbs below as an attribute\n" ++
  "filter = \"required\"\n" ++
  "http_verbs = [\"get\", \"post\", \"put\", \"delete\", \"patch\", \"head\", \"options\"]\n\n" ++
  "[sources]\n" ++
  "exclude = []\n"

end Config

end WrapperGen
