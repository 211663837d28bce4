import WrapperGen.Config.Decode
import WrapperGen.Config.Toml
import WrapperGen.Config.Validation
/-!
# Reading settings

A settings file must be readable and valid; otherwise the text of the error is given.
-/

namespace WrapperGen.Config

def fileName : String := "svcwrap.toml"

/-- The settings of a file's text. -/
def parse (text : String) : Except String Config :=
  match (Toml.parse text).bind decode with
  | none => .error ("Failed to parse " ++ fileName)
  | some c =>
    match c.problems with
    | [] => .ok c
    | ps => .error ("Invalid " ++ fileName ++ ": " ++ "; ".intercalate (ps.map (·.text)))

end WrapperGen.Config
