import WrapperGen.Source.Grammar.Patterns
/-!
# Reading expressions and statements

Binary operators are read by precedence climbing over the levels of `Level`. A block-like
expression in the place of a statement ends there, unless a method call or `?` follows.
-/

namespace WrapperGen.Source

/-! ## Operators -/

/-- How tightly operators bind, from loose to tight. -/
def Level.jump : Nat := 0
def Level.assign : Nat := 1
def Level.range : Nat := 2
def Level.compare : Nat := 6
def Level.cast : Nat := 13

/-- The binary operators with their levels, each before its own beginnings. -/
def binaryOps : List (String × Nat) :=
  [("+=", 1), ("-=", 1), ("*=", 1), ("/=", 1), ("%=", 1), ("^=", 1), ("&=", 1), ("|=", 1),
    ("<<=", 1), (">>=", 1), ("&&", 4), ("||", 3), ("<<", 10), (">>", 10), ("==", 6), ("<=", 6),
    ("!=", 6), (">=", 6), ("+", 11), ("-", 11), ("*", 12), ("/", 12), ("%", 12), ("^", 8),
    ("&", 9), ("|", 7), ("<", 6), (">", 6)]

/-- The binary operator that starts here. -/
def binaryOp? (ts : List Tree) : Option (String × Nat) := binaryOps.find? fun o => peekOp o.1 ts

/-- The level of a binary operator. -/
def levelOf (op : String) : Nat := ((binaryOps.find? (·.1 == op)).map (·.2)).getD 0

/-- The level of whatever operator starts here. -/
def nextLevel (ts : List Tree) : Nat :=
  match binaryOp? ts with
  | some (_, l) => l
  | none =>
    if peekOp "=" ts && !peekOp "=>" ts then Level.assign
    else if peekOp ".." ts then Level.range
    else if peekWord "as" ts then Level.cast
    else Level.jump

namespace Node

def isRange : Node → Bool
  | .form .range _ => true
  | _ => false

/-- Whether the node is a comparison. -/
def isComparison : Node → Bool
  | .form .binary [_, .token (.punct op _), _] => levelOf op == Level.compare
  | _ => false

/-- The expression without its attributes. -/
def bare : Node → Node
  | .form .attributed [_, e] => e
  | e => e

/-- Whether the expression ends in a block, so that no separator has to follow it. -/
def isBlockLike (n : Node) : Bool :=
  match n.bare with
  | .form f _ =>
    [.ifExpr, .matchExpr, .block, .uncheckedBlock, .whileLoop, .loopExpr, .forLoop, .tryBlock,
      .constBlock].contains f
  | _ => false

def isBraceInvocation (n : Node) : Bool :=
  match n.bare with
  | .form .invocation [_, _, .group .brace _] => true
  | _ => false

def endsInBrace (n : Node) : Bool :=
  match n.trees.getLast? with
  | some (.group .brace ..) => true
  | _ => false

def withAttributes (attrs : List Attribute) (n : Node) : Node :=
  if attrs.isEmpty then n else .form .attributed [attributesNode attrs, n]

end Node

namespace Grammar

open Reader

variable (g : Grammar)

def canBeginExpr (ts : List Tree) : Bool :=
  peekAnyWord ts || peekGroup .paren ts || peekGroup .bracket ts || peekGroup .brace ts ||
    peekLit ts || (peekOp "!" ts && !peekOp "!=" ts) ||
    (peekOp "-" ts && !peekOp "-=" ts && !peekOp "->" ts) || (peekOp "*" ts && !peekOp "*=" ts) ||
    (peekOp "|" ts && !peekOp "|=" ts) || (peekOp "&" ts && !peekOp "&=" ts) ||
    peekOp ".." ts || (peekOp "<" ts && !peekOp "<=" ts && !peekOp "<<=" ts) ||
    peekOp "::" ts || peekLifetime ts || peekOp "#" ts

/-- Whether `<` after `for` or `impl` opens generic parameters and not a path. -/
def opensGenerics (ts : List Tree) : Bool :=
  let one := ts.drop 1
  let two := ts.drop 2
  peekOp "<" ts &&
    (peekOp ">" one || peekOp "#" one ||
      ((peekLifetime one || peekName one) &&
        (peekOp ">" two || peekOp "," two || (peekOp ":" two && !peekOp "::" two) ||
          peekOp "=" two)) ||
      peekWord "const" one)

def braces : Reader Node := do
  return .group .brace (← within .brace g.statements)

/-- A block with inner attributes, as the body of a loop or a function. -/
def bodyBraces : Reader Node := do
  return .group .brace (← within .brace do
    let attrs ← g.innerAttributes
    let body ← g.statements
    return attrs.map Attribute.innerNode ++ body)

def label : Reader Node := do
  if ← test peekLifetime then
    let l ← lifetime
    return .form .row [.token (.lifetime l), ← op ":"]
  else return .absent

/-! ## Operands -/

def closureParam : Reader Node := do
  let attrs ← g.outerAttributes
  let p ← g.pattern
  let p ←
    if ← test (peekOp ":") then
      let colon ← op ":"
      pure (.form .typedPat [p, colon, .type (← g.ty true)])
    else pure p
  return p.withAttributes attrs

def closure (allowStruct : Bool) : Reader Node := do
  let binder ← g.binderHere?
  let constant ← optWord "const"
  let fixed ← optWord "static"
  let asynchronous ← optWord "async"
  let moving ← optWord "move"
  let open' ← op "|"
  let (params, trailing) ← separatedUntil (peekOp "|") g.closureParam ","
  let close ← op "|"
  let row := Node.commaSeparated params ++ if trailing then [.comma] else []
  let head := [(binder.map Node.binder).getD .absent, constant, fixed, asynchronous, moving, open',
    .form .row row, close]
  if ← test (peekOp "->") then
    let arrow ← op "->"
    let ty ← g.ty true
    let body := .form .block [.absent, ← g.braces]
    return .form .closure (head ++ [.form .row [arrow, .type ty], body])
  else return .form .closure (head ++ [.absent, ← g.expr allowStruct])

/-- A field of a struct literal. -/
def fieldInit : Reader Node := do
  let attrs := attributesNode (← g.outerAttributes)
  let m ← member
  if (← test (peekOp ":")) || !isNamedMember m then
    let colon ← op ":"
    return .form .fieldInit [attrs, m, colon, ← g.expr true]
  else return .form .fieldInit [attrs, m, .absent, .absent]

/-- The fields of a struct literal, and what it takes the others from. -/
def fieldInits : Nat → Reader (List Node)
  | 0 => return []
  | fuel + 1 => do
    let ts ← rest
    if ts.isEmpty then return []
    if peekOp ".." ts then
      let dots ← op ".."
      if (← rest).isEmpty then return [dots] else return [dots, ← g.expr true]
    let f ← g.fieldInit
    if (← rest).isEmpty then return [f]
    let comma ← op ","
    return f :: comma :: (← fieldInits fuel)

def pathExpr (allowStruct : Bool) : Reader Node := do
  let q ← g.qualifiedPath true
  match q with
  | .inl p =>
    if p.isPlain && (← test atInvocation) then return ← invocationTail p
  | .inr _ => pure ()
  if allowStruct && (← test (peekGroup .brace)) then
    let fields ← within .brace (do g.fieldInits ((← rest).length + 1))
    return .form .structLit [pathNode q, .group .brace fields]
  else return pathNode q

def parenExpr : Reader Node := do
  let (elems, trailing) ← within .paren (commaList (g.expr true))
  match elems, trailing with
  | [e], false => return .form .paren [.group .paren [e]]
  | _, _ =>
    let tail := if trailing then [.comma] else []
    return .form .tuple [.group .paren (Node.commaSeparated elems ++ tail)]

def arrayExpr : Reader Node := do
  let parts ← within .bracket do
    if (← rest).isEmpty then return ([], false)
    let first ← g.expr true
    let ts ← rest
    if ts.isEmpty then return ([first], false)
    else if peekOp "," ts then
      let comma ← op ","
      return (first :: comma :: (← commaNodes (g.expr true)), false)
    else if peekOp ";" ts then
      let semi ← op ";"
      return ([first, semi, ← g.expr true], true)
    else failRule "expected `,` or `;`"
  return .form (if parts.2 then .repeated else .array) [.group .bracket parts.1]

/-- The value after `break`, `return` or `yield`. -/
def jumpValue (allowStruct : Bool) : Reader Node := do
  let ts ← rest
  if canBeginExpr ts && (allowStruct || !peekGroup .brace ts) then g.expr true
  else return .absent

def breakExpr (allowStruct : Bool) : Reader Node := do
  let kw ← word "break"
  let pos := (← get).pos
  let ts ← rest
  if peekLifetime ts && peekOp ":" (ts.drop 1) then
    let _ ← g.expr true
    throw ⟨pos, .rule "parentheses required" false⟩
  let l := ((← lifetime?).map fun l => Node.token (.lifetime l)).getD .absent
  return .form .breakExpr [kw, l, ← g.jumpValue allowStruct]

def letCond (allowStruct : Bool) : Reader Node := do
  let kw ← word "let"
  let p ← g.patternWithBar
  let eq ← op "="
  let lhs ← g.unary allowStruct
  return .form .letCond [kw, p, eq, ← g.climb lhs allowStruct Level.compare]

/-- `if` with all its `else` branches. -/
def ifExpr : Nat → Reader Node
  | 0 => failExpected []
  | fuel + 1 => do
    let kw ← word "if"
    let cond ← g.expr false
    let body ← g.braces
    if !(← test (peekWord "else")) then return .form .ifExpr [kw, cond, body, .absent]
    let els ← word "else"
    let ts ← rest
    let tail ←
      if peekWord "if" ts then ifExpr fuel
      else if peekGroup .brace ts then do pure (.form .block [.absent, ← g.braces])
      else failExpected ["`if`", "curly braces"]
    return .form .ifExpr [kw, cond, body, .form .row [els, tail]]

def forLoop (label : Node) : Reader Node := do
  let kw ← word "for"
  let p ← g.patternWithBar
  let inKw ← word "in"
  let e ← g.expr false
  return .form .forLoop [label, kw, p, inKw, e, ← g.bodyBraces]

def whileLoop (label : Node) : Reader Node := do
  let kw ← word "while"
  let cond ← g.expr false
  return .form .whileLoop [label, kw, cond, ← g.bodyBraces]

def loopExpr (label : Node) : Reader Node := do
  let kw ← word "loop"
  return .form .loopExpr [label, kw, ← g.bodyBraces]

def blockExpr (label : Node) : Reader Node := do
  return .form .block [label, ← g.bodyBraces]

def keywordBlock (form : Form) (keyword : String) : Reader Node := do
  let kw ← word keyword
  return .form form [kw, ← g.bodyBraces]

/-- An arm of a `match`; a comma must follow it unless it is last or ends in a block. -/
def arm : Reader Node := do
  let attrs := attributesNode (← g.outerAttributes)
  let p ← g.patternWithBar
  let guard ←
    if ← test (peekWord "if") then
      let kw ← word "if"
      pure (.form .row [kw, ← g.expr true])
    else pure .absent
  let arrow ← op "=>"
  let body ← g.early
  let comma ←
    if !body.isBlockLike && !(← rest).isEmpty then op "," else optOp ","
  return .form .arm [attrs, p, guard, arrow, body, comma]

def matchExpr : Reader Node := do
  let kw ← word "match"
  let e ← g.expr false
  let arms ← within .brace do
    let attrs ← g.innerAttributes
    let arms ← manyWhile (!·.isEmpty) g.arm
    return attrs.map Attribute.innerNode ++ arms
  return .form .matchExpr [kw, e, .group .brace arms]

def labeled : Reader Node := do
  let l ← label
  let ts ← rest
  if peekWord "while" ts then g.whileLoop l
  else if peekWord "for" ts then g.forLoop l
  else if peekWord "loop" ts then g.loopExpr l
  else if peekGroup .brace ts then g.blockExpr l
  else failRule "expected loop or block expression"

/-- What ends an open range at its operator. -/
def endsRange (allowStruct : Bool) (ts : List Tree) : Bool :=
  ts.isEmpty || (peekOp "." ts && !peekOp ".." ts) ||
    (!allowStruct && peekGroup .brace ts) || peekWord "as" ts ||
    [",", ";", "?", "=>", "=", "+", "/", "%", "^", ">", "<=", "!=", "-=", "*=", "&=", "|=",
      "<<="].any (peekOp · ts)

/-- The right operand of an operator of level `level`. -/
def rightOperand (unary : Bool → Reader Node) (allowStruct : Bool) (level : Nat) : Reader Node := do
  let first ← unary allowStruct
  extend first ((← rest).length + 1)
where
  extend (rhs : Node) : Nat → Reader Node
    | 0 => return rhs
    | fuel + 1 => do
      let before ← rest
      let next := nextLevel before
      if level < next || (next == level && level == Level.assign) then
        let rhs ← g.climb rhs allowStruct next
        if (← rest).length = before.length then return rhs else extend rhs fuel
      else return rhs

def rangeEnd (unary : Bool → Reader Node) (allowStruct : Bool) (limits : Node) : Reader Node := do
  if limits.isOp ".." && endsRange allowStruct (← rest) then return .absent
  else g.rightOperand unary allowStruct Level.range

/-- An operand without operators around it. -/
def atom (unary : Bool → Reader Node) (allowStruct : Bool) : Reader Node := do
  let ts ← rest
  let one := ts.drop 1
  let two := ts.drop 2
  if peekLit ts then literal
  else if peekWord "async" ts &&
      (peekGroup .brace one || (peekWord "move" one && peekGroup .brace two)) then
    let kw ← word "async"
    let moving ← optWord "move"
    return .form .asyncBlock [kw, moving, ← g.braces]
  else if peekWord "try" ts && peekGroup .brace one then
    let kw ← word "try"
    return .form .tryBlock [kw, ← g.braces]
  else if peekOp "|" ts || peekWord "move" ts || (peekWord "for" ts && opensGenerics one) ||
      (peekWord "const" ts && !peekGroup .brace one) || peekWord "static" ts ||
      (peekWord "async" ts && (peekOp "|" one || peekWord "move" one)) then
    g.closure allowStruct
  else if peekName ts || peekOp "::" ts || peekOp "<" ts ||
      ["self", "Self", "super", "crate"].any (peekWord · ts) ||
      (peekWord "try" ts && (peekOp "!" one || peekOp "::" one)) then
    g.pathExpr allowStruct
  else if peekGroup .paren ts then g.parenExpr
  else if peekWord "break" ts then g.breakExpr allowStruct
  else if peekWord "continue" ts then
    let kw ← word "continue"
    let l := ((← lifetime?).map fun l => Node.token (.lifetime l)).getD .absent
    return .form .continueExpr [kw, l]
  else if peekWord "return" ts then
    let kw ← word "return"
    return .form .returnExpr [kw, ← g.jumpValue true]
  else if peekWord "become" ts then
    let kw ← word "become"
    return .form .verbatim [kw, ← g.expr true]
  else if peekGroup .bracket ts then g.arrayExpr
  else if peekWord "let" ts then g.letCond allowStruct
  else if peekWord "if" ts then g.ifExpr (ts.length + 1)
  else if peekWord "while" ts then g.whileLoop .absent
  else if peekWord "for" ts then g.forLoop .absent
  else if peekWord "loop" ts then g.loopExpr .absent
  else if peekWord "match" ts then g.matchExpr
  else if peekWord "yield" ts then
    let kw ← word "yield"
    return .form .yieldExpr [kw, ← g.jumpValue true]
  else if peekWord "unsafe" ts then g.keywordBlock .uncheckedBlock "unsafe"
  else if peekWord "const" ts then g.keywordBlock .constBlock "const"
  else if peekGroup .brace ts then g.blockExpr .absent
  else if peekOp ".." ts then
    let limits ← rangeOp
    return .form .range [.absent, limits, ← g.rangeEnd unary allowStruct limits]
  else if peekWord "_" ts then word "_"
  else if peekLifetime ts then g.labeled
  else failRule "expected an expression"

/-- The parts of `0.1` in `x.0.1`, and whether a further member must follow. -/
def indexParts (t : String) : List String × Bool :=
  let parts := (Text.splitOn ['.'] 0 [] t.toList).map String.ofList
  if t.endsWith "." then (parts.dropLast, true) else (parts, false)

/-- Calls, fields, indexing and `?` after an operand. -/
def trailers : Nat → Node → Reader Node
  | 0, e => return e
  | fuel + 1, e => do
    let ts ← rest
    if peekGroup .paren ts then
      let args ← within .paren (commaNodes (g.expr true))
      trailers fuel (.form .call [e, .group .paren args])
    else if peekOp "." ts && !peekOp ".." ts && !e.isRange then
      let dot ← op "."
      let pos := (← get).pos
      let more ← rest
      let (e, done) ←
        match more with
        | .leaf (.literal t) _ :: _ =>
          if isFloat t then do
            skip 1
            let (parts, open') := indexParts t
            let indices ← parts.mapM (index pos)
            let e := indices.foldl (fun e i => Node.form .field [e, .op ".", i]) e
            pure (e, !open')
          else pure (e, false)
        | _ => pure (e, false)
      if done then return ← trailers fuel e
      if ← test (peekWord "await") then
        let kw ← word "await"
        return ← trailers fuel (.form .await [e, dot, kw])
      let m ← member
      let turbofish ←
        if isNamedMember m && (← test (peekOp "::")) then
          Node.args <$> g.angleArgs (← g.inner)
        else pure .absent
      if isNamedMember m && (!turbofish.isAbsent || (← test (peekGroup .paren))) then
        let args ← within .paren (commaNodes (g.expr true))
        trailers fuel (.form .methodCall [e, dot, m, turbofish, .group .paren args])
      else trailers fuel (.form .field [e, dot, m])
    else if peekGroup .bracket ts then
      let i ← within .bracket (g.expr true)
      trailers fuel (.form .index [e, .group .bracket [i]])
    else if peekOp "?" ts && !e.isRange then
      let q ← op "?"
      trailers fuel (.form .tryOp [e, q])
    else return e

/-- An expression with prefix operators and what follows its operand, but no binary operator. -/
def unaryWith (allowStruct : Bool) : Reader Node := do
  let attrs ← g.outerAttributes
  let ts ← rest
  if peekOp "&" ts then
    let amp ← op "&"
    let ts ← rest
    let raw := peekWord "raw" ts && (peekWord "mut" (ts.drop 1) || peekWord "const" (ts.drop 1))
    if raw then
      let kw ← word "raw"
      let mode ← if ← test (peekWord "mut") then word "mut" else word "const"
      return (Node.form .rawBorrow [amp, kw, mode, ← g.unary allowStruct]).withAttributes attrs
    else
      let mutable ← optWord "mut"
      return (Node.form .borrow [amp, mutable, ← g.unary allowStruct]).withAttributes attrs
  else if peekOp "*" ts || peekOp "!" ts || peekOp "-" ts then
    -- a literal with a sign is one operand only in constant arguments and patterns
    let o ← if peekOp "*" ts then op "*" else if peekOp "!" ts then op "!" else op "-"
    return (Node.form .unary [o, ← g.unary allowStruct]).withAttributes attrs
  else
    let a ← g.atom g.unary allowStruct
    return (← g.trailers ((← rest).length + 1) a).withAttributes attrs

/-! ## Binary operators -/

def checkCast : Reader Unit := do
  let ts ← rest
  let one := ts.drop 1
  let two := ts.drop 2
  let followed :=
    if peekOp "." ts && !peekOp ".." ts then
      if peekWord "await" one then "`.await`"
      else if peekName one && (peekGroup .paren two || peekOp "::" two) then "a method call"
      else "a field access"
    else if peekOp "?" ts then "`?`"
    else if peekGroup .bracket ts then "indexing"
    else if peekGroup .paren ts then "a function call"
    else ""
  if followed != "" then failRule ("casts cannot be followed by " ++ followed)

/-- Operators after `lhs` that bind at least as tightly as `base`. -/
def climbWith (allowStruct : Bool) (base : Nat) : Nat → Node → Reader Node
  | 0, lhs => return lhs
  | fuel + 1, lhs => do
    let ts ← rest
    if lhs.isRange then return lhs
    match binaryOp? ts with
    | some (text, level) =>
      if level < base then return lhs
      if level == Level.compare && lhs.isComparison then
        failRule "comparison operators cannot be chained"
      let o ← op text
      let rhs ← g.rightOperand g.unaryWith allowStruct level
      climbWith allowStruct base fuel (.form .binary [lhs, o, rhs])
    | none =>
      if base ≤ Level.assign && peekOp "=" ts && !peekOp "=>" ts then
        let eq ← op "="
        let rhs ← g.rightOperand g.unaryWith allowStruct Level.assign
        climbWith allowStruct base fuel (.form .assign [lhs, eq, rhs])
      else if base ≤ Level.range && peekOp ".." ts then
        let limits ← rangeOp
        let stop ← g.rangeEnd g.unaryWith allowStruct limits
        climbWith allowStruct base fuel (.form .range [lhs, limits, stop])
      else if base ≤ Level.cast && peekWord "as" ts then
        let kw ← word "as"
        let ty ← g.ty false
        checkCast
        climbWith allowStruct base fuel (.form .cast [lhs, kw, .type ty])
      else return lhs

def climbHere (lhs : Node) (allowStruct : Bool) (base : Nat) : Reader Node := do
  g.climbWith allowStruct base ((← rest).length + 1) lhs

def exprWith (allowStruct : Bool) : Reader Node := do
  let lhs ← g.unaryWith allowStruct
  g.climbHere lhs allowStruct Level.jump

/-! ## Statements -/

/-- An expression in the place of a statement or as the body of an arm. -/
def earlyWith : Reader Node := do
  let attrs ← g.outerAttributes
  let ts ← rest
  let one := ts.drop 1
  let blockLike : Option (Reader Node) :=
    if peekWord "if" ts then some (g.ifExpr (ts.length + 1))
    else if peekWord "while" ts then some (g.whileLoop .absent)
    else if peekWord "for" ts && !opensGenerics one then some (g.forLoop .absent)
    else if peekWord "loop" ts then some (g.loopExpr .absent)
    else if peekWord "match" ts then some g.matchExpr
    else if peekWord "try" ts && peekGroup .brace one then
      some (do
        let kw ← word "try"
        return .form .tryBlock [kw, ← g.braces])
    else if peekWord "unsafe" ts then some (g.keywordBlock .uncheckedBlock "unsafe")
    else if peekWord "const" ts && peekGroup .brace one then
      some (g.keywordBlock .constBlock "const")
    else if peekGroup .brace ts then some (g.blockExpr .absent)
    else if peekLifetime ts then some g.labeled
    else none
  match blockLike with
  | none =>
    let e ← g.unaryWith true
    g.climbHere (e.withAttributes attrs) true Level.jump
  | some p =>
    let e ← p
    let ts ← rest
    if (peekOp "." ts && !peekOp ".." ts) || peekOp "?" ts then
      let e ← g.trailers (ts.length + 1) e
      g.climbHere (e.withAttributes attrs) true Level.jump
    else return e.withAttributes attrs

def letStatement (attrs : List Attribute) : Reader Node := do
  let kw ← word "let"
  let p ← g.pattern
  let p ←
    if ← test (peekOp ":") then
      let colon ← op ":"
      pure (Node.form .typedPat [p, colon, .type (← g.ty true)])
    else pure p
  let init ←
    if ← test (peekOp "=") then
      let eq ← op "="
      let e ← g.expr true
      if !e.endsInBrace && (← test (peekWord "else")) then
        let els ← word "else"
        pure (Node.form .row [eq, e, els, .form .block [.absent, ← g.braces]])
      else pure (Node.form .row [eq, e])
    else pure .absent
  return .form .letStmt [attributesNode attrs, kw, p, init, ← op ";"]

/-- Whether an item begins here, after its attributes. -/
def beginsItem (ts : List Tree) : Bool :=
  let one := ts.drop 1
  let two := ts.drop 2
  let is := fun w => peekWord w ts
  let follows := fun w => peekWord w one
  is "pub" || (is "crate" && !peekOp "::" one) || is "extern" || is "use" ||
    (is "static" && (follows "mut" || (peekName one &&
      !(follows "async" && (peekWord "move" two || peekOp "|" two))))) ||
    (is "const" && !(peekGroup .brace one || follows "static" ||
      (follows "async" && !(["unsafe", "extern", "fn"].any (peekWord · two))) || follows "move" ||
      peekOp "|" one)) ||
    (is "unsafe" && !peekGroup .brace one) ||
    (is "async" && ["unsafe", "extern", "fn"].any (peekWord · one)) ||
    ["fn", "mod", "type", "struct", "enum", "trait", "impl", "macro"].any is ||
    (is "union" && peekName one) || (is "auto" && follows "trait") ||
    (is "default" && (follows "unsafe" || follows "impl"))

def statement : Reader Node := do
  let start ← rest
  let attrs ← g.outerAttributes
  let ts ← rest
  let named ← ahead? plainPath
  let after := (named.map (·.2.rest)).getD []
  let one := after.drop 1
  let two := after.drop 2
  let bang := named.isSome && peekOp "!" after
  let itemInvocation := bang && (peekName one || peekWord "try" one)
  if bang && !itemInvocation && peekGroup .brace one &&
      !((peekOp "." two && !peekOp ".." two) || peekOp "?" two) then
    let p ← plainPath
    let call ← invocationTail p
    return .form .invocationStmt [attributesNode attrs, call, ← optOp ";"]
  if peekWord "let" ts then g.letStatement attrs
  else if beginsItem ts || itemInvocation then
    let c ← get
    set { c with rest := start }
    let _ ← g.item
    return .form .itemStmt (← takenSince start)
  else
    let e := (← g.earlyWith).withAttributes attrs
    let semi ← optOp ";"
    match e.bare with
    | .form .invocation _ =>
      if !semi.isAbsent || e.isBraceInvocation then
        return .form .invocationStmt [attributesNode attrs, e.bare, semi]
      else return .form .exprStmt [e, semi]
    | _ => return .form .exprStmt [e, semi]

/-- Whether more may follow the statement only after a semicolon. -/
def needsSemicolon : Node → Bool
  | .form .exprStmt [e, semi] => semi.isAbsent && !e.isBlockLike && !e.isBraceInvocation
  | .form .invocationStmt [_, call, semi] => semi.isAbsent && !call.isBraceInvocation
  | _ => false

def statementsWith : Reader (List Node) := many do
  if ← test (peekOp ";") then
    return some (.form .exprStmt [.absent, ← op ";"])
  if (← rest).isEmpty then return none
  let s ← g.statement
  if !(← rest).isEmpty && needsSemicolon s then failRule "unexpected token, expected `;`"
  return some s

end Grammar

end WrapperGen.Source
