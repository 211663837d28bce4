import WrapperGen.Text.Digit
/-!
# Tokens

The lexical units of a source file: tokens, and token trees, in which every bracket is already
matched with its partner. A tree remembers where each token starts; a token does not.
-/

namespace WrapperGen.Source

/-- A place in a text: the line counts from one, the column from zero, in characters. -/
structure Pos where
  line : Nat
  column : Nat
deriving DecidableEq, Repr, Inhabited

namespace Pos

def start : Pos := ⟨1, 0⟩

/-- The place after the character `c`. -/
def next (p : Pos) (c : Char) : Pos :=
  if c = '\n' then ⟨p.line + 1, 0⟩ else ⟨p.line, p.column + 1⟩

def advance (p : Pos) (cs : List Char) : Pos := cs.foldl next p

@[simp] theorem advance_nil (p : Pos) : p.advance [] = p := rfl

theorem advance_append (p : Pos) (xs ys : List Char) :
    p.advance (xs ++ ys) = (p.advance xs).advance ys := by
  simp [advance, List.foldl_append]

end Pos

inductive Delim
  | paren
  | bracket
  | brace
deriving DecidableEq, Repr, Inhabited

namespace Delim

def opening : Delim → Char
  | .paren => '('
  | .bracket => '['
  | .brace => '\x7b'

def closing : Delim → Char
  | .paren => ')'
  | .bracket => ']'
  | .brace => '\x7d'

def ofOpening? : Char → Option Delim
  | '(' => some .paren
  | '[' => some .bracket
  | '\x7b' => some .brace
  | _ => none

def ofClosing? : Char → Option Delim
  | ')' => some .paren
  | ']' => some .bracket
  | '\x7d' => some .brace
  | _ => none

theorem ofOpening?_opening (d : Delim) : ofOpening? d.opening = some d := by cases d <;> rfl

theorem ofClosing?_closing (d : Delim) : ofClosing? d.closing = some d := by cases d <;> rfl

end Delim

/-- One token. A punctuation token is `joint` when the next character of the text is punctuation
too, so that both may belong to one operator. -/
inductive Token
  | ident (text : String)
  | lifetime (text : String)
  | literal (text : String)
  | punct (text : String) (joint : Bool)
deriving DecidableEq, Repr, Inhabited

namespace Token

/-- An operator that stands by itself. -/
def op (text : String) : Token := .punct text false

def isIdent (text : String) : Token → Bool
  | .ident t => t == text
  | _ => false

end Token

/-! ## Numbers -/

/-- Whether a number has a point or an exponent. -/
def isFloat (t : String) : Bool :=
  let cs := t.toList
  let plain := !(t.startsWith "0x" || t.startsWith "0o" || t.startsWith "0b")
  let body := cs.dropWhile fun c => c.isDigit || c == '_'
  t.front.isDigit && plain &&
    match body with
    | '.' :: _ => true
    | c :: r => (c == 'e' || c == 'E') &&
        (match r.dropWhile (fun c => c == '+' || c == '-' || c == '_') with
          | d :: _ => d.isDigit
          | [] => false)
    | [] => false

/-- The value of a whole number, if it has no suffix. -/
def wholeNumber? (t : String) : Option Nat :=
  match t.toList.filter (· != '_') with
  | '0' :: 'x' :: cs => Text.number? 16 cs
  | '0' :: 'o' :: cs => Text.number? 8 cs
  | '0' :: 'b' :: cs => Text.number? 2 cs
  | cs => Text.number? 10 cs

/-- A token tree with the places of its tokens. -/
inductive Tree
  | leaf (token : Token) (pos : Pos)
  | group (delim : Delim) (inner : List Tree) (opened closed : Pos)
deriving Inhabited

namespace Tree

/-- Where the tree begins. -/
def pos : Tree → Pos
  | .leaf _ p => p
  | .group _ _ p _ => p

mutual
/-- The number of tokens, a pair of brackets counting as two. -/
def size : Tree → Nat
  | .leaf .. => 1
  | .group _ ts _ _ => sizes ts + 2
def sizes : List Tree → Nat
  | [] => 0
  | t :: ts => t.size + sizes ts
end

end Tree

end WrapperGen.Source
