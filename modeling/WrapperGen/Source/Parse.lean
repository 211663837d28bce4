import WrapperGen.Source.Grammar.Items
import WrapperGen.Source.Lexer
/-!
# Reading a text

The entry points: `File.parse`, `Ty.parse` and so on read a whole text as one phrase.
-/

namespace WrapperGen.Source

namespace Grammar

/-- A grammar for phrases nested less than `depth` deep; one step of depth costs a token. -/
def ofDepth : Nat → Grammar
  | 0 =>
    { ty := fun _ => .failExpected []
      expr := fun _ => .failExpected []
      unary := fun _ => .failExpected []
      climb := fun _ _ _ => .failExpected []
      early := .failExpected []
      pattern := .failExpected []
      statements := .failExpected []
      item := .failExpected [] }
  | depth + 1 =>
    { ty := fun plus c => (ofDepth depth).typeWith plus c
      expr := fun struct c => (ofDepth depth).exprWith struct c
      unary := fun struct c => (ofDepth depth).unaryWith struct c
      climb := fun lhs struct level c => (ofDepth depth).climbHere lhs struct level c
      early := fun c => (ofDepth depth).earlyWith c
      pattern := fun c => (ofDepth depth).singlePattern c
      statements := fun c => (ofDepth depth).statementsWith c
      item := fun c => (ofDepth depth).itemWith c }

/-- A grammar deep enough for the given trees. -/
def forTrees (ts : List Tree) : Grammar := ofDepth (4 * Tree.sizes ts + 8)

end Grammar

open Reader

/-- Reads all of `trees` as the phrase that `p` reads. -/
def readTrees {α : Type} (p : Grammar → Reader α) (trees : List Tree) : Except SyntaxError α :=
  (p (.forTrees trees)).run trees

/-- Reads all of `text`. -/
def readText {α : Type} (p : Grammar → Reader α) (text : String) : Except SyntaxError α :=
  match Lexer.lex text with
  | .error pos => .error ⟨pos, .noTokens⟩
  | .ok trees => readTrees p trees

def Ty.parse (text : String) : Except SyntaxError Ty := readText (·.ty true) text

def Path.parse (text : String) : Except SyntaxError Path := readText (·.path false) text

def Visibility.parse (text : String) : Except SyntaxError Visibility :=
  readText (fun _ => Grammar.visibility) text

/-- Whether the text is a name. -/
def parseName (text : String) : Except SyntaxError String := readText (fun _ => name) text

def Generics.parse (text : String) : Except SyntaxError Generics := readText (·.generics) text

def Trait.parse (text : String) : Except SyntaxError Trait :=
  readText (fun g => do
    let attrs ← g.outerAttributes
    match ← g.traitItem attrs with
    | .trait t => return t
    | _ => failExpected []) text

namespace File

def reader (g : Grammar) : Reader File := do
  let _ ← g.innerAttributes
  return ⟨← manyWhile (!·.isEmpty) g.item⟩

/-- A first line that begins with `#!` belongs to the shell, unless it begins an attribute. Its
line end stays. -/
def dropShebang (cs : List Char) : List Char :=
  match cs with
  | '#' :: '!' :: r =>
    match Lexer.skipBlanks (r.length + 1) r with
    | '[' :: _ => cs
    | _ => cs.dropWhile (· != '\n')
  | _ => cs

/-- The items of a source text. -/
def parse (text : String) : Except SyntaxError File :=
  readText reader (String.ofList (dropShebang (Lexer.dropMark text.toList)))

end File

end WrapperGen.Source
