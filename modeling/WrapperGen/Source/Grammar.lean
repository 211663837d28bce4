import WrapperGen.Source.Reader
import WrapperGen.Source.Item
/-!
# The readers that need each other

Types, expressions, patterns, statements and items contain one another. Each family of readers is
written against a `Grammar`, which holds the readers of all families one level further down; the
knot is tied once, in `Grammar.ofDepth`.
-/

namespace WrapperGen.Source

structure Grammar where
  /-- A type; the flag allows several bounds joined by `+`. -/
  ty : Bool → Reader Ty
  /-- An expression; the flag allows a struct literal at its head. -/
  expr : Bool → Reader Node
  /-- An expression without binary operators. -/
  unary : Bool → Reader Node
  /-- The operators after a left operand that bind at least as tightly as the given level. -/
  climb : Node → Bool → Nat → Reader Node
  /-- An expression in the place of a statement. -/
  early : Reader Node
  /-- A pattern without alternatives. -/
  pattern : Reader Node
  statements : Reader (List Node)
  item : Reader Item

end WrapperGen.Source
