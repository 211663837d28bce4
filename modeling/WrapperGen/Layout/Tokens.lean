import WrapperGen.Layout.Piece
import WrapperGen.Source.Ty
import WrapperGen.Text.Quote
import WrapperGen.Text.Replace
/-!
# Layout of loose tokens

The tokens inside an invocation or an attribute have no grammar, so what stands between two of them
is decided by the last few tokens alone.
-/

namespace WrapperGen.Layout

open Source

/-- What the tokens so far look like. -/
inductive Trail
  | start
  | pound
  | poundBang
  | dollar
  /-- A repeated group, up to the mark that says how often. -/
  | dollarGroup
  | dollarSeparator
  | dot
  | colon
  | colons
  | word
  | wordBang
  | closed
  | other
deriving DecidableEq, Repr

/-- Words that cannot be names, as far as spacing goes. -/
def stiffWords : List String :=
  ["as", "async", "await", "box", "break", "const", "continue", "crate", "dyn", "else", "enum",
    "extern", "fn", "for", "if", "impl", "in", "let", "loop", "macro", "match", "mod", "move",
    "mut", "pub", "ref", "return", "static", "struct", "trait", "type", "unsafe", "use", "where",
    "while", "yield"]

/-- Whether a blank goes before the token, and what the trail looks like after it, unless a repeated
group came last. -/
def Trail.after (trail : Trail) : Node → Bool × Trail
  | .token (.punct "!" joint) =>
    if trail = .pound then (false, .poundBang)
    else if trail = .word && !joint then (false, .wordBang)
    else (true, .other)
  | .token (.punct ":" joint) =>
    if trail = .colon then (false, .colons)
    else if joint then (trail ≠ .word, .colon)
    else (true, .other)
  | .token (.punct "," _) => (false, .other)
  | .token (.punct ";" _) => (false, .other)
  | .token (.punct "." _) => (trail ≠ .word && trail ≠ .closed, .dot)
  | .token (.punct "$" _) => (true, .dollar)
  | .token (.punct "#" _) => (true, .pound)
  | .token (.punct _ _) => (true, .other)
  | .token (.ident name) =>
    if trail = .dollar then (false, .other)
    else if stiffWords.contains name then (true, .other)
    else (trail ≠ .dot && trail ≠ .colons, .word)
  | .token (.lifetime name) =>
    (true, if stiffWords.contains (String.ofList (name.toList.drop 1)) then .other else .word)
  | .token (.literal _) => (trail ≠ .dot, .word)
  | .group .bracket _ =>
    if trail = .pound || trail = .poundBang || trail = .wordBang then (false, .other)
    else (trail ≠ .word, .closed)
  | .group .paren _ =>
    if trail = .wordBang then (false, .other)
    else if trail = .dollar then (false, .dollarGroup)
    else (trail ≠ .word, .closed)
  | _ => (true, .other)

/-- Whether a blank goes before the token, and what the trail looks like after it. -/
def Trail.next (trail : Trail) (n : Node) : Bool × Trail :=
  match trail, n with
  | .dollarGroup, .token (.punct s joint) =>
    (false, if joint then .dollarGroup
      else if ["+", "*", "?"].contains s then .other else .dollarSeparator)
  | .dollarGroup, .token _ => (false, .dollarSeparator)
  | .dollarSeparator, .token (.punct "+" _) => (false, .other)
  | .dollarSeparator, .token (.punct "*" _) => (false, .other)
  | _, _ => trail.after n

def isJoint : Node → Bool
  | .token (.punct s joint) => joint || s == "$"
  | _ => false

def isDot : Node → Bool
  | .token (.punct "." _) => true
  | _ => false

mutual
def tokenPieces : Node → List Piece
  | .token (.ident s) => text s
  | .token (.lifetime s) => text s
  | .token (.literal s) => text s
  | .token (.punct s _) => text s
  | .group .paren ns => text "(" ++ tokensFrom true .start ns ++ text ")"
  | .group .bracket ns => text "[" ++ tokensFrom true .start ns ++ text "]"
  | .group .brace ns =>
    text "\x7b" ++
      (if ns.isEmpty then [] else space ++ tokensFrom true .start ns ++ space) ++ text "\x7d"
  | _ => []
/-- Tokens after others that look like `trail`; `joint` if nothing may come between. -/
def tokensFrom (joint : Bool) (trail : Trail) : List Node → List Piece
  | [] => []
  | n :: ns =>
    let (blank, trail) := trail.next n
    (if joint then [] else if blank then space else if isDot n then zeroBreak else []) ++
      tokenPieces n ++ tokensFrom (isJoint n) trail ns
end

def tokensPieces (ns : List Node) : List Piece := tokensFrom true .start ns

/-! ## Attributes -/

/-- The last token inside an attribute. -/
inductive AttrTrail
  | word
  | punct
  /-- The comma behind the last item. -/
  | comma
deriving DecidableEq, Repr

mutual
/-- A token inside an attribute. Only two words stand apart, and what comes around `=` and behind a
comma. -/
def attrToken (trail : AttrTrail) (isLast : Bool) : Node → List Piece × AttrTrail
  | .token (.punct c _) =>
    if c == "," then
      if isLast then ([.brk { plainBreak 0 with ending := "," }], .comma)
      else (text "," ++ space, .punct)
    else if c == "=" then (text (if trail = .word then " = " else "= "), .punct)
    else (text c, .punct)
  | .token (.lifetime l) => (text l, .word)
  | .token t => ((if trail = .word then space else []) ++ tokenPieces (.token t), .word)
  | .group .paren ns =>
    let (inner, last) := attrTokens .punct ns
    (text "(" ++ cbox step (dedent (zeroBreak ++ inner ++ if last = .comma then [] else zeroBreak)) ++
      text ")", .punct)
  | .group .bracket ns => (text "[" ++ (attrTokens .punct ns).1 ++ text "]", .punct)
  | .group .brace ns => (text "\x7b" ++ (attrTokens .punct ns).1 ++ text "\x7d", .punct)
  | _ => ([], trail)
def attrTokens (trail : AttrTrail) : List Node → List Piece × AttrTrail
  | [] => ([], trail)
  | n :: ns =>
    let (first, trail) := attrToken trail ns.isEmpty n
    let (others, trail) := attrTokens trail ns
    (first ++ others, trail)
end

def trimBlanks (cs : List Char) : List Char := (cs.reverse.dropWhile (· == ' ')).reverse

/-- The text with no blanks before a line end. -/
def trimLines (cs : List Char) : List Char :=
  let lines := Text.splitOn ['\n'] 0 [] cs
  ['\n'].intercalate (lines.dropLast.map trimBlanks ++ lines.getLast?.toList)

/-- Whether every comment inside the text is closed in it, `depth` being open so far. -/
def closesComments : Nat → List Char → Bool
  | depth, '/' :: '*' :: cs => closesComments (depth + 1) cs
  | 0, '*' :: '/' :: _ => false
  | depth + 1, '*' :: '/' :: cs => closesComments depth cs
  | depth, _ :: cs => closesComments depth cs
  | depth, [] => depth == 0

/-- Whether the text can stand in a comment that is closed right behind it. -/
def fitsComment (cs : List Char) : Bool := closesComments 0 cs && cs.getLast? != some '/'

/-- The comment that stands for the attribute `#[name = "value"]`; there is none for most names and
for values that would not stay in their comment. -/
def commentPieces? (inner : Bool) (name value : String) : Option (List Piece) :=
  let cs := value.toList
  let isBlock := cs.contains '\n'
  let begins (banned : List Char) : Bool := cs.head?.any (banned.contains ·)
  let line (mark : String) := text (mark ++ String.ofList (trimBlanks cs)) ++ hardBreak
  let block (mark : String) := text (mark ++ String.ofList (trimLines cs) ++ "*/") ++ hardBreak
  if name == "doc" then
    if !isBlock && (inner || !begins ['/']) then some (line (if inner then "//!" else "///"))
    else if fitsComment cs && (inner || !begins ['*', '/']) then
      some (block (if inner then "/*!" else "/**"))
    else none
  else if name == "comment" then
    if !isBlock then some (line "//")
    else if fitsComment cs && !begins ['*', '!'] then some (block "/*")
    else none
  else none

/-- The comment that stands for an attribute with this path and this body. -/
def attributeComment? (inner : Bool) (p : Path) : List Node → Option (List Piece)
  | [_, .token (.literal t)] => do
    match p with
    | ⟨false, [s]⟩ => commentPieces? inner s.name (← Text.unquote? t)
    | _ => none
  | _ => none

end WrapperGen.Layout
