import WrapperGen.Source.Fault
import WrapperGen.Source.Ty
/-!
# Reading token trees

A `Reader` takes trees from the front of the current bracket. A bracket whose content is read only
in part is no error by itself: the first such place is remembered and reported when all else went
well. Alternatives are told apart by peeking; a failed alternative names what was tried.
-/

namespace WrapperGen.Source

/-- What is still to be read inside the current bracket. -/
structure Cursor where
  rest : List Tree
  /-- The place to report when the bracket ends too early. -/
  scope : Pos
  /-- The first tree that was left over in a bracket already closed. -/
  stray : Option SyntaxError

abbrev Reader (α : Type) := StateT Cursor (Except SyntaxError) α

namespace Cursor

def atEnd (c : Cursor) : Bool := c.rest.isEmpty

/-- The place of the next tree, or of the end. -/
def pos (c : Cursor) : Pos :=
  match c.rest with
  | t :: _ => t.pos
  | [] => c.scope

end Cursor

/-! ## Peeking -/

def peekPunctChars : List Char → List Tree → Bool
  | [], _ => true
  | [c], .leaf (.punct t _) _ :: _ => t == String.singleton c
  | c :: cs, .leaf (.punct t true) _ :: ts => t == String.singleton c && peekPunctChars cs ts
  | _, _ => false

/-- Whether the operator starts here; more operator characters may follow it. -/
def peekOp (text : String) (ts : List Tree) : Bool := peekPunctChars text.toList ts

def peekWord (text : String) : List Tree → Bool
  | .leaf (.ident t) _ :: _ => t == text
  | _ => false

def peekAnyWord : List Tree → Bool
  | .leaf (.ident _) _ :: _ => true
  | _ => false

/-- Words that are no names. -/
def keywords : List String :=
  ["_", "abstract", "as", "async", "await", "become", "box", "break", "const", "continue", "crate",
    "do", "dyn", "else", "enum", "extern", "false", "final", "fn", "for", "if", "impl", "in",
    "let", "loop", "macro", "match", "mod", "move", "mut", "override", "priv", "pub", "ref",
    "return", "Self", "self", "static", "struct", "super", "trait", "true", "try", "type",
    "typeof", "unsafe", "unsized", "use", "virtual", "where", "while", "yield"]

/-- Whether a word may be the name of something. -/
def isName (text : String) : Bool := !keywords.contains text

def peekName : List Tree → Bool
  | .leaf (.ident t) _ :: _ => isName t
  | _ => false

def peekLifetime : List Tree → Bool
  | .leaf (.lifetime _) _ :: _ => true
  | _ => false

def peekGroup (d : Delim) : List Tree → Bool
  | .group d' _ _ _ :: _ => d' == d
  | _ => false

/-- Whether a literal starts here: a literal token, `true`, `false`, or a number with a sign. -/
def peekLit : List Tree → Bool
  | .leaf (.literal _) _ :: _ => true
  | .leaf (.ident t) _ :: _ => t == "true" || t == "false"
  | .leaf (.punct "-" _) _ :: .leaf (.literal t) _ :: _ => t.front.isDigit
  | _ => false

def isTextLiteral (t : String) : Bool := t.front == '"' || t.front == 'r'

def peekTextLit : List Tree → Bool
  | .leaf (.literal t) _ :: _ => isTextLiteral t
  | _ => false

def peekFloat : List Tree → Bool
  | .leaf (.literal t) _ :: _ => isFloat t
  | _ => false

def peekInt : List Tree → Bool
  | .leaf (.literal t) _ :: _ => t.front.isDigit && !isFloat t
  | _ => false

namespace Reader

def rest : Reader (List Tree) := do return (← get).rest

def test (p : List Tree → Bool) : Reader Bool := do return p (← get).rest

/-- Fails at the next tree, or at the end of the bracket, which the fault then mentions. -/
def fail {α : Type} (fault : Bool → Fault) : Reader α := do
  let c ← get
  throw ⟨c.pos, fault c.atEnd⟩

def failExpected {α : Type} (alternatives : List String) : Reader α :=
  fail (.expected alternatives)

def failRule {α : Type} (text : String) : Reader α := fail (.rule text)

/-- Takes the next tree, which was peeked before. -/
def take : Reader Tree := do
  match (← get).rest with
  | t :: ts => modify ({ · with rest := ts }); return t
  | [] => failExpected []

def skip (n : Nat) : Reader Unit := modify fun c => { c with rest := c.rest.drop n }

/-! ## Tokens -/

/-- Reads an operator. -/
def op (text : String) : Reader Node := do
  if ← test (peekOp text) then
    skip text.length
    return .op text
  else
    throw ⟨(← get).pos, .expected ["`" ++ text ++ "`"] false⟩

/-- Reads a keyword. -/
def word (text : String) : Reader Node := do
  if ← test (peekWord text) then
    skip 1
    return .word text
  else failExpected ["`" ++ text ++ "`"]

def op? (text : String) : Reader (Option Node) := do
  if ← test (peekOp text) then return some (← op text) else return none

def word? (text : String) : Reader (Option Node) := do
  if ← test (peekWord text) then return some (← word text) else return none

/-- An optional keyword as a part that may be absent. -/
def optWord (text : String) : Reader Node := do return (← word? text).getD .absent

def optOp (text : String) : Reader Node := do return (← op? text).getD .absent

/-- Reads a name. -/
def name : Reader String := do
  match (← get).rest with
  | .leaf (.ident t) pos :: _ =>
    if isName t then skip 1; return t
    else throw ⟨pos, .keyword t⟩
  | _ => failExpected ["identifier"]

/-- Reads any word, a keyword too. -/
def anyWord : Reader String := do
  match (← get).rest with
  | .leaf (.ident t) _ :: _ => skip 1; return t
  | _ => failExpected ["ident"]

def lifetime : Reader String := do
  match (← get).rest with
  | .leaf (.lifetime t) _ :: _ => skip 1; return t
  | _ => failExpected ["lifetime"]

def lifetime? : Reader (Option String) := do
  if ← test peekLifetime then return some (← lifetime) else return none

/-- Reads a literal, a signed number as one token. -/
def literal : Reader Node := do
  match (← get).rest with
  | .leaf (.literal t) _ :: _ => skip 1; return .token (.literal t)
  | .leaf (.ident t) _ :: _ =>
    if t == "true" || t == "false" then skip 1; return .word t
    else failExpected ["literal"]
  | .leaf (.punct "-" _) _ :: .leaf (.literal t) _ :: _ =>
    if t.front.isDigit then skip 2; return .token (.literal ("-" ++ t))
    else failExpected ["literal"]
  | _ => failExpected ["literal"]

/-- The index of a field, given the text of a literal at `pos`: it is written without suffix. -/
def index (pos : Pos) (text : String) : Reader Node :=
  let failure (rule : String) : Reader Node := throw ⟨pos, .rule rule false⟩
  if isFloat text then failure "expected integer literal"
  else
    match wholeNumber? text with
    | none => failure "expected unsuffixed integer"
    | some n =>
      if n < UInt32.size then return .token (.literal (toString n))
      else failure "number too large to fit in target type"

/-! ## Brackets and repetition -/

def delimName : Delim → String
  | .paren => "parentheses"
  | .bracket => "square brackets"
  | .brace => "curly braces"

/-- Reads a group and its content with `inner`; what `inner` leaves over is remembered. -/
def within {α : Type} (d : Delim) (inner : Reader α) : Reader α := do
  let c ← get
  match c.rest with
  | .group d' ts _ closed :: after =>
    if d' = d then
      match inner ⟨ts, closed, c.stray⟩ with
      | .error e => throw e
      | .ok (a, c') =>
        let stray := c'.stray <|> c'.rest.head?.map fun t => ⟨t.pos, .leftover (some d)⟩
        set (⟨after, c.scope, stray⟩ : Cursor)
        return a
    else failExpected [delimName d]
  | _ => failExpected [delimName d]

/-- The trees inside a group, taken as they are. -/
def rawGroup : Reader (Delim × List Tree) := do
  match (← get).rest with
  | .group d ts _ _ :: _ => skip 1; return (d, ts)
  | _ => failExpected ["delimiter"]

/-- All trees that are left. -/
def takeAll : Reader (List Tree) := do
  let ts ← rest
  modify ({ · with rest := [] })
  return ts

/-- Runs `step` until it gives nothing, at most `fuel` times. -/
def loop {α : Type} (step : Reader (Option α)) : Nat → Reader (List α)
  | 0 => return []
  | fuel + 1 => do
    match ← step with
    | some a => return a :: (← loop step fuel)
    | none => return []

/-- Runs `step` until it gives nothing; every run that gives something takes a tree. -/
def many {α : Type} (step : Reader (Option α)) : Reader (List α) := do
  loop step ((← rest).length + 1)

/-- Runs `item` as long as `go` holds of what is left. -/
def manyWhile {α : Type} (go : List Tree → Bool) (item : Reader α) : Reader (List α) :=
  many do if ← test go then return some (← item) else return none

/-- Items with separators up to a place where `stop` holds: the items, and whether a separator
ends the list. `sep` reads one separator. -/
def sepList {α : Type} (stop : List Tree → Bool) (item : Reader α) (sep : Reader Unit) :
    Nat → Reader (List α × Bool)
  | 0 => return ([], false)
  | fuel + 1 => do
    if ← test stop then return ([], true)
    let a ← item
    if ← test stop then return ([a], false)
    sep
    let (as, trailing) ← sepList stop item sep fuel
    return (a :: as, trailing)

/-- `sepList` whose flag is false for the empty list. -/
def separatedUntil {α : Type} (stop : List Tree → Bool) (item : Reader α) (sep : String) :
    Reader (List α × Bool) := do
  let (as, trailing) ← sepList stop item (do let _ ← op sep) ((← rest).length + 1)
  return (as, trailing && !as.isEmpty)

/-- Items with commas between them up to the end of the bracket. -/
def commaList {α : Type} (item : Reader α) : Reader (List α × Bool) :=
  separatedUntil List.isEmpty item ","

/-- The nodes of `commaList` with the commas put back. -/
def commaNodes (item : Reader Node) : Reader (List Node) := do
  let (ns, trailing) ← commaList item
  return Node.commaSeparated ns ++ if trailing then [.comma] else []

/-- Runs `p` without taking anything; `none` if it fails. -/
def ahead? {α : Type} (p : Reader α) : Reader (Option (α × Cursor)) := do
  match p (← get) with
  | .ok r => return some r
  | .error _ => return none

/-- The nodes of the trees that were taken since `before`. -/
def takenSince (before : List Tree) : Reader (List Node) := do
  return Node.ofTrees (before.take (before.length - (← rest).length))

end Reader

/-- Reads all of `trees` with `p`; the first leftover tree is an error. -/
def Reader.run {α : Type} (p : Reader α) (trees : List Tree) : Except SyntaxError α :=
  match p ⟨trees, .start, none⟩ with
  | .error e => .error e
  | .ok (a, c) =>
    match c.stray <|> c.rest.head?.map fun t => ⟨t.pos, .leftover none⟩ with
    | some e => .error e
    | none => .ok a

end WrapperGen.Source
