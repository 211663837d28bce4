/-!
# JSON

Values and their text, with one member on each line.
-/

namespace WrapperGen.Text

inductive Json
  | bool (b : Bool)
  | number (n : Nat)
  | text (s : String)
  | array (values : List Json)
  | object (fields : List (String × Json))

namespace Json

def escapeChar (c : Char) : String :=
  match c with
  | '"' => "\\\""
  | '\\' => "\\\\"
  | '\n' => "\\n"
  | '\r' => "\\r"
  | '\t' => "\\t"
  | '\x08' => "\\b"
  | '\x0c' => "\\f"
  | _ =>
    if c.toNat < 16 then "\\u000" ++ String.ofList (Nat.toDigits 16 c.toNat)
    else if c.toNat < 32 then "\\u00" ++ String.ofList (Nat.toDigits 16 c.toNat)
    else String.singleton c

def quoted (s : String) : String := "\"" ++ String.join (s.toList.map escapeChar) ++ "\""

def indented (depth : Nat) (s : String) : String := String.ofList (List.replicate (2 * depth) ' ') ++ s

/-- Members between two brackets. -/
def enclosed (depth : Nat) (opening closing : String) : List String → String
  | [] => opening ++ closing
  | members =>
    opening ++ "\n" ++ ",\n".intercalate (members.map (indented (depth + 1))) ++ "\n" ++
      indented depth closing

mutual

def prettyAt (depth : Nat) : Json → String
  | bool b => toString b
  | number n => toString n
  | text s => quoted s
  | array values => enclosed depth "[" "]" (prettyValues depth values)
  | object fields => enclosed depth "\x7b" "\x7d" (prettyFields depth fields)

def prettyValues (depth : Nat) : List Json → List String
  | [] => []
  | v :: vs => prettyAt (depth + 1) v :: prettyValues depth vs

def prettyFields (depth : Nat) : List (String × Json) → List String
  | [] => []
  | f :: fs => prettyField depth f :: prettyFields depth fs

def prettyField (depth : Nat) : String × Json → String
  | (name, v) => quoted name ++ ": " ++ prettyAt (depth + 1) v

end

def pretty (v : Json) : String := prettyAt 0 v

def texts (ss : List String) : Json := array (ss.map text)

end Json

end WrapperGen.Text
