import WrapperGen.Source.Grammar.Types
/-!
# Reading patterns
-/

namespace WrapperGen.Source.Grammar

open Reader

variable (g : Grammar)

/-- A path in an expression or a pattern, as a node. -/
def pathNode : Sum Path (Ty × Nat × Path) → Node
  | .inl p => .path p
  | .inr (s, n, p) => .projection s n p

/-- The path and the tokens of an invocation, after its path. -/
def invocationTail (p : Path) : Reader Node := do
  let bang ← op "!"
  let (d, inner) ← rawGroup
  return .form .invocation [.path p, bang, .group d (Node.ofTrees inner)]

def atInvocation (ts : List Tree) : Bool := peekOp "!" ts && !peekOp "!=" ts

/-- Whether another alternative follows. -/
def atAlternative (ts : List Tree) : Bool := peekOp "|" ts && !peekOp "||" ts && !peekOp "|=" ts

/-- Alternatives, also with a leading bar. -/
def patternWithBar : Reader Node := do
  let bar ← optOp "|"
  let first ← g.pattern
  let more ← manyWhile atAlternative do
    let sep ← op "|"
    return [sep, ← g.pattern]
  if bar.isAbsent && more.isEmpty then return first
  else return .form .orPat [bar, .form .row (first :: more.flatten)]

/-- A name or the index of a field. -/
def member : Reader Node := do
  let ts ← rest
  if peekName ts then return .word (← name)
  else if peekInt ts then
    let pos := (← get).pos
    match ← literal with
    | .token (.literal t) => index pos t
    | n => return n
  else failRule "expected identifier or integer"

def isNamedMember : Node → Bool
  | .token (.ident _) => true
  | _ => false

/-! ## Ranges -/

/-- The operator of a range in an expression. -/
def rangeOp : Reader Node := do
  let ts ← rest
  if peekOp "..=" ts then op "..="
  else if peekOp ".." ts && !peekOp "..." ts then op ".."
  else failExpected ["`..`", "`..=`", "`...`"]

/-- The operator of a range in a pattern, which may be the old `...`. -/
def patternRangeOp : Reader Node := do
  let ts ← rest
  if peekOp "..=" ts then op "..="
  else if peekOp "..." ts then op "..."
  else op ".."

/-- A bound of a range pattern, or nothing. -/
def rangeBound : Reader Node := do
  let ts ← rest
  if ts.isEmpty || peekOp "|" ts || peekOp "=" ts || (peekOp ":" ts && !peekOp "::" ts) ||
      peekOp "," ts || peekOp ";" ts || peekWord "if" ts then
    return .absent
  if peekLit ts then literal
  else if peekName ts || peekOp "::" ts || peekOp "<" ts ||
      ["self", "Self", "super", "crate"].any (peekWord · ts) then
    return pathNode (← g.qualifiedPath true)
  else if peekWord "const" ts then
    let kw ← word "const"
    return .form .constBlock [kw, .group .brace (← within .brace g.statements)]
  else
    failExpected
      ["literal", "identifier", "`::`", "`<`", "`self`", "`Self`", "`super`", "`crate`", "`const`"]

/-- The end of a range pattern after its operator. -/
def rangeTail (start : Node) : Reader Node := do
  let limits ← patternRangeOp
  let stop ← g.rangeBound
  if stop.isAbsent && !limits.isOp ".." then failRule "expected range upper bound"
  return .form .range [start, limits, stop]

/-! ## Patterns -/

def bindingPattern : Reader Node := do
  let byRef ← optWord "ref"
  let mutable ← optWord "mut"
  let name ← if ← test (peekWord "self") then anyWord else name
  let sub ←
    if ← test (peekOp "@") then
      let at' ← op "@"
      pure (.form .row [at', ← g.pattern])
    else pure .absent
  return .form .bindingPat [byRef, mutable, .word name, sub]

def fieldPattern : Reader Node := do
  let attrs := attributesNode (← g.outerAttributes)
  if ← test (peekOp "..") then
    return .form .restPat [attrs, ← op ".."]
  let boxed ← optWord "box"
  let byRef ← optWord "ref"
  let mutable ← optWord "mut"
  let bare := boxed.isAbsent && byRef.isAbsent && mutable.isAbsent
  let m ← if bare then member else Node.word <$> name
  if (bare && (← test (peekOp ":"))) || !isNamedMember m then
    let colon ← op ":"
    return .form .fieldPat [attrs, m, colon, ← g.patternWithBar]
  let binding := .form .bindingPat [byRef, mutable, m, .absent]
  let pat := if boxed.isAbsent then binding else .form .boxPat [boxed, binding]
  return .form .fieldPat [attrs, .absent, .absent, pat]

/-- The fields of a struct pattern; nothing may follow `..`. -/
def fieldPatterns : Nat → Reader (List Node)
  | 0 => return []
  | fuel + 1 => do
    if (← rest).isEmpty then return []
    let f ← g.fieldPattern
    if f matches .form .restPat _ then return [f]
    if (← rest).isEmpty then return [f]
    let comma ← op ","
    return f :: comma :: (← fieldPatterns fuel)

def pathPattern : Reader Node := do
  let q ← g.qualifiedPath true
  let ts ← rest
  let isInvocation := atInvocation ts &&
    match q with
    | .inl p => p.isPlain
    | .inr _ => false
  let node := pathNode q
  match q with
  | .inl p => if isInvocation then return ← invocationTail p
  | .inr _ => pure ()
  if peekGroup .brace ts then
    let fields ← within .brace (do g.fieldPatterns ((← rest).length + 1))
    return .form .structPat [node, .group .brace fields]
  else if peekGroup .paren ts then
    let elems ← within .paren (commaNodes g.patternWithBar)
    return .form .tupleStructPat [node, .group .paren elems]
  else if peekOp ".." ts then g.rangeTail node
  else return node

def isRestPattern : Node → Bool
  | .form .restPat _ => true
  | _ => false

def parenPattern : Reader Node := do
  let (elems, trailing) ← within .paren (commaList g.patternWithBar)
  match elems, trailing with
  | [p], false =>
    if isRestPattern p then return .form .tuple [.group .paren [p]]
    else return .form .paren [.group .paren [p]]
  | _, _ =>
    let tail := if trailing then [.comma] else []
    return .form .tuple [.group .paren (Node.commaSeparated elems ++ tail)]

/-- An element of a slice pattern, where an open range needs parentheses. -/
def sliceElement : Reader Node := do
  let pos := (← get).pos
  let p ← g.patternWithBar
  match p with
  | .form .range [start, _, stop] =>
    if start.isAbsent || stop.isAbsent then
      throw ⟨pos, .rule "range pattern is not allowed unparenthesized inside slice pattern" false⟩
    else return p
  | _ => return p

def patternBeginnings : List String :=
  ["identifier", "`::`", "`<`", "`_`", "literal", "`const`", "`ref`", "`mut`", "`&`",
    "parentheses", "square brackets", "`..`"]

/-- A pattern without alternatives. -/
def singlePattern : Reader Node := do
  let ts ← rest
  let next := ts.drop 1
  if (peekName ts && (peekOp "::" next || peekOp "!" next || peekGroup .brace next ||
        peekGroup .paren next || peekOp ".." next)) ||
      (peekWord "self" ts && peekOp "::" next) || peekOp "::" ts || peekOp "<" ts ||
      ["Self", "super", "crate"].any (peekWord · ts) then
    g.pathPattern
  else if peekWord "_" ts then word "_"
  else if peekWord "box" ts then
    let kw ← word "box"
    return .form .boxPat [kw, ← g.pattern]
  else if peekOp "-" ts || peekLit ts || peekWord "const" ts then
    let start ← g.rangeBound
    if ← test (peekOp "..") then g.rangeTail start else return start
  else if ["ref", "mut", "self"].any (peekWord · ts) || peekName ts then g.bindingPattern
  else if peekOp "&" ts then
    let amp ← op "&"
    let mutable ← optWord "mut"
    return .form .borrowPat [amp, mutable, ← g.pattern]
  else if peekGroup .paren ts then g.parenPattern
  else if peekGroup .bracket ts then
    return .form .slicePat [.group .bracket (← within .bracket (commaNodes g.sliceElement))]
  else if peekOp ".." ts && !peekOp "..." ts then
    let limits ← patternRangeOp
    let stop ← g.rangeBound
    if !stop.isAbsent then return .form .range [.absent, limits, stop]
    else if limits.isOp ".." then return .form .restPat [.absent, limits]
    else failRule "expected range upper bound"
  else failExpected patternBeginnings

end WrapperGen.Source.Grammar
