/-!
# Structured data

What a settings file holds before it is understood: texts, lists and tables. Other values are of
no use for settings and keep no content.
-/

namespace WrapperGen

inductive Data
  | null
  | text (value : String)
  | list (elements : List Data)
  | table (entries : List (String × Data))
  | other
deriving Inhabited

namespace Data

def lookup? (entries : List (String × Data)) (key : String) : Option Data := entries.lookup key

end Data

end WrapperGen
