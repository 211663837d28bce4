import WrapperGen.Source.Token
/-!
# Syntax errors

Why a text is not a phrase, and where. The wording is in `Fault.message` alone.
-/

namespace WrapperGen.Source

/-- What is wrong. `atEnd` holds when the tokens of the innermost bracket, or of the text, ran out. -/
inductive Fault
  /-- The text is no sequence of tokens. -/
  | noTokens
  /-- None of the alternatives is here. -/
  | expected (alternatives : List String) (atEnd : Bool)
  /-- A keyword stands where a name must. -/
  | keyword (name : String)
  /-- Tokens are left over, in the given bracket or at the end of the text. -/
  | leftover (inside : Option Delim)
  /-- A rule of its own is broken. -/
  | rule (text : String) (atEnd : Bool)
deriving DecidableEq, Repr

/-- A fault and its place. -/
structure SyntaxError where
  pos : Pos
  fault : Fault
deriving DecidableEq, Repr

namespace Fault

def atEndText (atEnd : Bool) (text : String) : String :=
  if atEnd then "unexpected end of input, " ++ text else text

/-- The wording of a fault. -/
def message : Fault → String
  | noTokens => "cannot parse string into token stream"
  | expected [] atEnd => if atEnd then "unexpected end of input" else "unexpected token"
  | expected [a] atEnd => atEndText atEnd ("expected " ++ a)
  | expected [a, b] atEnd => atEndText atEnd ("expected " ++ a ++ " or " ++ b)
  | expected as atEnd => atEndText atEnd ("expected one of: " ++ ", ".intercalate as)
  | keyword name => "expected identifier, found keyword `" ++ name ++ "`"
  | leftover none => "unexpected token"
  | leftover (some .paren) => "unexpected token, expected `)`"
  | leftover (some .bracket) => "unexpected token, expected `]`"
  | leftover (some .brace) => "unexpected token, expected `\x7d`"
  | rule text atEnd => atEndText atEnd text

end Fault

end WrapperGen.Source
