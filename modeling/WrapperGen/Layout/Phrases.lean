import WrapperGen.Layout.Tokens
import WrapperGen.Source.Render
/-!
# Layout of types, expressions, patterns and statements
-/

namespace WrapperGen.Layout

open Source

/-- How the arguments of a path are written. -/
inductive PathStyle
  /-- Not at all. -/
  | plain
  | type
  /-- After `::`. -/
  | expr
deriving DecidableEq, Repr

/-- The place of an expression. -/
inductive Place
  | value
  /-- First in a line. -/
  | lineStart
  /-- Before a call, a field or `?`. -/
  | operand (lineStart : Bool)
  /-- The body of a `match` arm. -/
  | armBody
deriving DecidableEq, Repr

namespace Place

def atLineStart : Place → Bool
  | lineStart | operand true | armBody => true
  | _ => false

def isOperand : Place → Bool
  | operand _ => true
  | _ => false

end Place

/-! ## Kinds of expression -/

def isShortName : Node → Bool
  | .path p => !p.leading && p.isPlain &&
    match p.names with
    | [name] => (name.utf8ByteSize : Int) ≤ step
    | _ => false
  | _ => false

/-- Whether the expression brings its own brackets, so that a call can close right behind it. -/
def isBracketed : Node → Bool
  | .form f _ =>
    [.array, .asyncBlock, .block, .closure, .constBlock, .structLit, .tryBlock, .tuple,
      .uncheckedBlock].contains f
  | _ => false

/-- Whether the expression is a statement without a semicolon. -/
def isStatementLike : Node → Bool
  | .form f _ =>
    [.ifExpr, .matchExpr, .block, .uncheckedBlock, .whileLoop, .loopExpr, .forLoop, .tryBlock,
      .constBlock].contains f
  | _ => false

/-- Whether the expression stays itself when it stands in a block. -/
def fitsBlock : Node → Bool
  | .form .assign (l :: _) => opens l
  | .form .binary (l :: _) => opens l
  | .form .cast (l :: _) => opens l
  | .form .index (l :: _) => opens l
  | .form .call (l :: _) => opens l
  | .form .field (l :: _) => fitsBlock l
  | .form .methodCall (l :: _) => fitsBlock l
  | .form .tryOp (l :: _) => fitsBlock l
  | .form .await (l :: _) => fitsBlock l
  | .form .range (l :: _) => l.isAbsent || opens l
  | _ => true
where
  opens (l : Node) : Bool := !isStatementLike l && fitsBlock l

def addsSemicolon : Node → Bool
  | .form .binary [_, .token (.punct o _), _] => o.endsWith "=" && !(["==", "<=", ">=", "!="].contains o)
  | .form f _ => [.assign, .breakExpr, .continueExpr, .returnExpr, .yieldExpr].contains f
  | _ => false

def dropsSemicolon : Node → Bool
  | .form .forLoop _ | .form .whileLoop _ => true
  | .form .ifExpr [_, _, _, .form .row [_, tail]] => dropsSemicolon tail
  | .form .ifExpr _ => true
  | _ => false

/-- Whether the opening brace behind the expression may go to the next line. -/
def breaksBeforeBrace : Node → Bool
  | .form .breakExpr [_, _, e] => breaksBeforeBrace e
  | .form .call (f :: _) => breaksBeforeBrace f
  | .form .letCond [_, _, _, e] => breaksBeforeBrace e
  | .form .paren [.group _ [e]] => breaksBeforeBrace e
  | .form .range [_, _, e] => breaksBeforeBrace e
  | .form .borrow [_, _, e] => breaksBeforeBrace e
  | .form .rawBorrow [_, _, _, e] => breaksBeforeBrace e
  | .form .returnExpr [_, e] => breaksBeforeBrace e
  | .form .yieldExpr [_, e] => breaksBeforeBrace e
  | .form .tryOp (e :: _) => breaksBeforeBrace e
  | .form .unary [_, e] => breaksBeforeBrace e
  | .form f _ => [.assign, .await, .binary, .cast, .field, .index, .methodCall].contains f
  | _ => false

/-- Whether the literal is a whole number, a character, a byte or a truth value. -/
def isPlainLiteral : Node → Bool
  | .token (.ident s) => s == "true" || s == "false"
  | .token (.literal s) =>
    match s.toList with
    | 'b' :: '\'' :: _ | '\'' :: _ => true
    | cs => cs.head?.any Char.isDigit && !isFloat s
  | _ => false

/-- Whether a list holds only such literals, and at least one. -/
def isPlainList : Node → Bool
  | .group _ ns =>
    let items := ns.filter (!·.isComma)
    !items.isEmpty && items.all isPlainLiteral
  | _ => false

/-- A list of literals, which share lines. -/
def plainListBox (items : List (List Piece)) : List Piece :=
  cbox step (text "[" ++ dedent (zeroBreak ++ ibox 0 (go items) ++
    [.brk { plainBreak 0 with ending := "," }]) ++ text "]")
where
  go : List (List Piece) → List Piece
    | [] => []
    | [x] => x
    | x :: xs => x ++ text "," ++ space ++ go xs

/-- A keyword that may be absent, with a blank behind it. -/
def optional (keyword : String) (n : Node) : List Piece :=
  if n.isAbsent then [] else text (keyword ++ " ")

/-- The text of tokens that stand for themselves. -/
def rawText (ns : List Node) : String := showTrees (nodesTrees ns)

/-- Braces around statements that each end in a break. -/
def bracedLines (lines : List Piece) : List Piece :=
  text "\x7b" ++ neverBreak ++ cbox step (dedent (hardBreakIfNonempty ++ lines)) ++ text "\x7d"

/-- The text of a path without arguments. -/
def plainText (p : Path) : String := (if p.leading then "::" else "") ++ "::".intercalate p.names

/-- A call of the form `path!(tokens)`. -/
def invocationPieces (p : Path) (n : Node) : List Piece :=
  text (plainText p ++ "!") ++
    match n with
    | .group d ns =>
      let (opening, closing, brk) := match d with
        | .paren => ("(", ")", zeroBreak)
        | .bracket => ("[", "]", zeroBreak)
        | .brace => (" \x7b", "\x7d", hardBreak)
      text opening ++
        (if ns.isEmpty then [] else cbox step (dedent (brk ++ ibox 0 (tokensPieces ns) ++ brk))) ++
        text closing
    | _ => []
/-- `<self as A>::B`; the segments are written as in types up to the position of the trait. -/
def projectionPieces (self : List Piece) (position : Nat) (leading : Bool)
    (inTrait after : List (List Piece)) : List Piece :=
  let head := inTrait.take position
  text "<" ++ self ++
    (if position = 0 then text ">"
      else text " as " ++ (if leading then text "::" else []) ++ between "::" head ++ text ">") ++
    (after.drop position).flatMap (text "::" ++ ·)
/-- The elements of a tuple; one alone keeps its comma. -/
def tupleBox (items : List (List Piece)) : List Piece :=
  match items with
  | [x] => cbox step (dedent (zeroBreak ++ x ++ text "," ++ zeroBreak))
  | _ => commaBox step items

/-- Bounds behind a colon, each on a line of its own if they do not fit. -/
def boundList (bounds : List (List Piece)) : List Piece :=
  match bounds with
  | [] => []
  | b :: bs => text ": " ++ b ++ bs.flatMap fun b => space ++ text "+ " ++ b
/-! ## Parts of expressions -/

/-- The arguments of a call. A single one that brings its own brackets needs no more indentation. -/
def callArgs (args : List Node) (items : List (List Piece)) : List Piece :=
  match args.filter (!·.isComma), items with
  | [a], [x] => if isBracketed a then x else commaBox step items
  | _, _ => commaBox step items

/-- The condition or the operand before an opening brace. -/
def beforeBrace (n : Node) (ps : List Piece) : List Piece :=
  cbox 0 (ps ++ if breaksBeforeBrace n then space else text " ")

/-- A block that fits in one line if it holds one expression, given as `alone`. -/
def smallBlock (alone : Option (List Piece)) (lines : List Piece) : List Piece :=
  text "\x7b" ++
    (match alone with
      | some ps => dedent (space ++ ibox 0 ps ++ space)
      | none => if lines.isEmpty then [] else dedent (space ++ lines)) ++
    text "\x7d"

/-- A statement that ends in a semicolon unless it needs none. -/
def statementLine (ps : List Piece) (semicolon : Bool) : List Piece :=
  ibox 0 (ps ++ if semicolon then text ";" else []) ++ hardBreak

/-- An expression in its place. -/
def finish (place : Place) (n : Node) (ps : List Piece) : List Piece :=
  match place with
  | .operand _ => cbox (-step) ps
  | .armBody =>
    let braces := fitsBlock n
    neverBreak ++ cbox step (
      [.brk { plainBreak 0 with ending := if braces then "\x7b" else "(" }] ++ ps ++
      [.brk ⟨-step, 0, if braces && addsSemicolon n then ";" else "",
        if braces then "\x7d" else ")", if isStatementLike n then "" else ",", false, false⟩])
  | _ => ps

/-- A chain of fields, calls and the like in its place. -/
def finishChain (place : Place) (n : Node) (ps : List Piece) : List Piece :=
  if place.isOperand then ps else finish place n (cbox step ps)

/-- The break before the dot of a field or a method. -/
def chainBreak (place : Place) (receiver : Node) : List Piece :=
  if place.atLineStart && isShortName receiver then [] else zeroBreak

/-- Whether a statement is an expression that gives its block a value. -/
def isTail : Node → Bool
  | .form .exprStmt [e, semi] => semi.isAbsent && !e.isAbsent
  | _ => false

/-- The parameters of a closure. -/
def closureParams (ps : List (List Piece)) : List Piece :=
  match ps with
  | [] => []
  | p :: ps => p ++ ps.flatMap fun p => text "," ++ space ++ p

/-- Whether the body of a closure may begin in the line of its parameters. -/
def closesLine : Node → Bool
  | .form .matchExpr _ | .form .call _ => true
  | _ => false

/-- The body of a closure, in braces if it goes to a new line. -/
def bracedValue (n : Node) (ps : List Piece) : List Piece :=
  let braces := fitsBlock n
  cbox step ([.brk { plainBreak 0 with ending := if braces then "\x7b" else "(" }] ++ ps ++
    [.brk ⟨-step, 0, if braces && addsSemicolon n then ";" else "",
      if braces then "\x7d" else ")", "", false, false⟩])

/-- Alternatives of a pattern. -/
def alternatives (consistent : Bool) (ps : List (List Piece)) : List Piece :=
  match ps with
  | [] => []
  | p :: ps => box 0 consistent (p ++ ps.flatMap fun p => space ++ text "| " ++ p)

/-- Fields between braces. `tail` is what follows the last comma. -/
def fieldsBox (head : List Piece) (fields : List (List Piece)) (tail : Option (List Piece)) :
    List Piece :=
  let rec go : List (List Piece) → List Piece
    | [] => []
    | [x] => x ++
      if tail.isSome then text "," ++ space
      else [.brk { plainBreak 1 with ending := "," }]
    | x :: xs => x ++ text "," ++ space ++ go xs
  head ++ text " \x7b" ++ dedent (spaceIfNonempty ++ go fields ++
    ((tail.map fun t => t ++ space).getD []))

mutual
def tyPieces : Ty → List Piece
  | .array e n => text "[" ++ tyPieces e ++ text "; " ++ nodePieces .value n ++ text "]"
  | .fnPointer b u abi ps _ v o =>
    binderPieces b ++ (if u then text "unsafe " else []) ++
      (match abi with
        | none => []
        | some none => text "extern "
        | some (some name) => text ("extern " ++ name ++ " ")) ++
      text "fn(" ++
      cbox step (dedent (zeroBreak ++
        (if v.isEmpty then commas (paramPieces ps)
          else (paramPieces ps).flatMap (· ++ text "," ++ space) ++ furtherPieces v ++ zeroBreak))) ++
      text ")" ++ outputPieces o
  | .implTrait bs _ => text "impl " ++ between " + " (boundsPieces bs)
  | .infer => text "_"
  | .never => text "!"
  | .invocation p n => invocationPieces p n
  | .paren e => text "(" ++ tyPieces e ++ text ")"
  | .path p => pathPieces .type p
  | .projection s n ⟨l, ss⟩ => projectionPieces (tyPieces s) n l (segmentsPieces .type ss)
      (segmentsPieces .type ss)
  | .pointer m e => text (if m then "*mut " else "*const ") ++ tyPieces e
  | .reference l m e =>
    text "&" ++ ((l.map fun l => text (l ++ " ")).getD []) ++ (if m then text "mut " else []) ++
      tyPieces e
  | .slice e => text "[" ++ tyPieces e ++ text "]"
  | .traitObject _ bs _ => text "dyn " ++ between " + " (boundsPieces bs)
  | .tuple es _ => text "(" ++ tupleBox (tysPieces es) ++ text ")"
  | .verbatim ts => [.unwritable ("Type::Verbatim `" ++ rawText ts ++ "`")]
def pathPieces (style : PathStyle) : Path → List Piece
  | ⟨l, ss⟩ => (if l then text "::" else []) ++ between "::" (segmentsPieces style ss)
def segmentPieces (style : PathStyle) : Segment → List Piece
  | ⟨n, a⟩ => text n ++ argsPieces style a
def argsPieces (style : PathStyle) : Args → List Piece
  | .none => []
  | .angle _ as _ =>
    if as.isEmpty || style = .plain then []
    else
      text (if style = .expr then "::<" else "<") ++ commaBox step (genericArgsPieces as) ++
        text ">"
  | .paren ts _ o =>
    cbox step (text "(" ++ dedent (zeroBreak ++ commas (tysPieces ts)) ++ text ")" ++
      outputPieces o)
def genericArgPieces : GenericArg → List Piece
  | .lifetime n => text n
  | .type t => tyPieces t
  | .const (.form .block ps) => nodePieces .value (.form .block ps)
  | .const (.token t) => nodePieces .value (.token t)
  | .const n => text "\x7b" ++ nodePieces .value n ++ text "\x7d"
  | .assocType n a t => text n ++ argsPieces .type a ++ text " = " ++ tyPieces t
  | .assocConst n a v => text n ++ argsPieces .type a ++ text " = " ++ nodePieces .value v
  | .constraint n a bs _ =>
    text n ++ argsPieces .type a ++ ibox step (boundList (boundsPieces bs))
def boundPieces : Bound → List Piece
  | .lifetime n => text n
  | .trait inParens maybe b p =>
    (if inParens then text "(" else []) ++ (if maybe then text "?" else []) ++ binderPieces b ++
      pathPieces .type p ++ (if inParens then text ")" else [])
  | .capture ps _ => text "use<" ++ commaBox 0 (ps.map text) ++ text ">"
  | .verbatim ts => [.unwritable ("TypeParamBound::Verbatim `" ++ rawText ts ++ "`")]
def genericParamPieces : GenericParam → List Piece
  | .lifetime a n bs =>
    attrsPieces a ++ text n ++
      (if bs.isEmpty then [] else text ": " ++ between " + " (bs.map text))
  | .type a n bs d =>
    attrsPieces a ++ text n ++ ibox step (boundList (boundsPieces bs) ++ defaultTyPieces d)
  | .const a n t d =>
    attrsPieces a ++ text "const " ++ text n ++ text ": " ++ tyPieces t ++ defaultPieces d
def binderPieces : Option Binder → List Piece
  | none => []
  | some ⟨ps, _⟩ => text "for<" ++ between ", " (genericParamsPieces ps) ++ text "> "
def outputPieces : Option Ty → List Piece
  | none => []
  | some t => text " -> " ++ tyPieces t
def defaultTyPieces : Option Ty → List Piece
  | none => []
  | some t => space ++ text "= " ++ tyPieces t
def defaultPieces : Option Node → List Piece
  | none => []
  | some n => text " = " ++ nodePieces .value n
def paramPieces : List FnPointerParam → List (List Piece)
  | [] => []
  | ⟨a, n, t⟩ :: ps =>
    (attrsPieces a ++ ((n.map fun n => text (n ++ ": ")).getD []) ++ tyPieces t) :: paramPieces ps
/-- What stands for further parameters: attributes, a name and dots. -/
def furtherPieces : List Node → List Piece
  | [] => []
  | n :: ns =>
    (if n.isComma then [] else nodePieces .value n ++ if n.isOp ":" then text " " else []) ++
      furtherPieces ns
def tysPieces : List Ty → List (List Piece)
  | [] => []
  | t :: ts => tyPieces t :: tysPieces ts
def segmentsPieces (style : PathStyle) : List Segment → List (List Piece)
  | [] => []
  | s :: ss => segmentPieces style s :: segmentsPieces style ss
def genericArgsPieces : List GenericArg → List (List Piece)
  | [] => []
  | a :: as => genericArgPieces a :: genericArgsPieces as
def boundsPieces : List Bound → List (List Piece)
  | [] => []
  | b :: bs => boundPieces b :: boundsPieces bs
def genericParamsPieces : List GenericParam → List (List Piece)
  | [] => []
  | p :: ps => genericParamPieces p :: genericParamsPieces ps
def attrsPieces : List Node → List Piece
  | [] => []
  | n :: ns => nodePieces .value n ++ attrsPieces ns
/-- What follows the path of an attribute. -/
def attrBody : List Node → List Piece
  | [_, value] => text " = " ++ nodePieces .value value
  | [.group d ns] => (attrToken .word true (.group d ns)).1
  | _ => []
/-- The elements of a list, without the commas. -/
def valuesOf : List Node → List (List Piece)
  | [] => []
  | n :: ns => if n.isComma then valuesOf ns else nodePieces .value n :: valuesOf ns
/-- Statements or arms. -/
def linesOf : List Node → List Piece
  | [] => []
  | n :: ns => nodePieces .value n ++ linesOf ns
def insideValues : Node → List (List Piece)
  | .group _ ns => valuesOf ns
  | _ => []
def insideLines : Node → List Piece
  | .group _ ns => linesOf ns
  | _ => []
/-- The value of a block that holds nothing else. -/
def aloneIn (place : Place) : Node → Option (List Piece)
  | .group _ [s] => tailValue place s
  | _ => none
def tailValue (place : Place) : Node → Option (List Piece)
  | .form .exprStmt [e, semi] => if semi.isAbsent && !e.isAbsent then some (nodePieces place e) else none
  | _ => none
/-- The parts of a row. -/
def rowPieces : Node → List (List Piece)
  | .form .row ns => rowParts ns
  | _ => []
def rowParts : List Node → List (List Piece)
  | [] => []
  | n :: ns => nodePieces .value n :: rowParts ns
/-- What follows the block of an `if`. -/
def elsePieces : Node → Option (List Piece)
  | .form .row [_, .form .ifExpr [_, c, b, e]] =>
    some (text " else if " ++ cbox (-step) (beforeBrace c (nodePieces .value c)) ++
      smallBlock (aloneIn .lineStart b) (insideLines b) ++ (elsePieces e).getD [])
  | .form .row [_, .form .block [_, b]] =>
    some (text " else " ++ smallBlock (aloneIn .lineStart b) (insideLines b))
  | _ => none
def nodePieces (place : Place) : Node → List Piece
  | .token t => finish place (.token t) (tokenPieces (.token t))
  | .group d ns => tokenPieces (.group d ns)
  | .type t => tyPieces t
  | .path p => finish place (.path p) (pathPieces .expr p)
  | .projection s n ⟨l, ss⟩ =>
    finish place (.projection s n ⟨l, ss⟩)
      (projectionPieces (tyPieces s) n l (segmentsPieces .type ss) (segmentsPieces .expr ss))
  | .args a => argsPieces .expr a
  | .binder ⟨ps, _⟩ => text "for<" ++ between ", " (genericParamsPieces ps) ++ text "> "
  | .form .attr [_, .group _ (.path p :: body)] =>
    (attributeComment? false p body).getD
      (text ("#[" ++ plainText p) ++ attrBody body ++ text "]" ++ space)
  | .form .attr [_, _, .group _ (.path p :: body)] =>
    (attributeComment? true p body).getD
      (text ("#![" ++ plainText p) ++ attrBody body ++ text "]" ++ space)
  | .form .attributed [as, e] => (rowPieces as).flatten ++ nodePieces place e
  | .form .array [g] =>
    finish place (.form .array [g])
      (if isPlainList g then plainListBox (insideValues g)
        else text "[" ++ commaBox step (insideValues g) ++ text "]")
  | .form .assign [l, o, r] =>
    finish place (.form .assign [l, o, r])
      (ibox 0 (nodePieces .value l ++ text " = " ++ neverBreak ++ nodePieces .value r))
  | .form .asyncBlock [k, m, b] =>
    finish place (.form .asyncBlock [k, m, b])
      (text "async " ++ optional "move" m ++
        cbox step (smallBlock (aloneIn .lineStart b) (insideLines b)))
  | .form .await [e, d, k] =>
    finishChain place (.form .await [e, d, k])
      (nodePieces (.operand place.atLineStart) e ++ chainBreak place e ++ text ".await")
  | .form .binary [l, .token (.punct o j), r] =>
    finish place (.form .binary [l, .token (.punct o j), r])
      (ibox step (ibox (-step) (nodePieces .value l) ++ space ++ text (o ++ " ") ++
        nodePieces .value r))
  | .form .block [l, b] =>
    let lbl := (rowPieces l).flatten ++ if l.isAbsent then [] else text " "
    match place with
    | .armBody =>
      match if l.isAbsent then aloneIn .armBody b else none with
      | some ps => ps
      | none => lbl ++ bracedLines (insideLines b)
    | _ =>
      finish place (.form .block [l, b])
        (lbl ++ cbox step (smallBlock (aloneIn .lineStart b) (insideLines b)))
  | .form .breakExpr [k, l, e] =>
    finish place (.form .breakExpr [k, l, e])
      (text "break" ++ (if l.isAbsent then [] else text " " ++ nodePieces .value l) ++
        (if e.isAbsent then [] else text " " ++ nodePieces .value e))
  | .form .call [f, .group d args] =>
    let inner : Place := match place with
      | .operand _ => .operand false
      | .value => .value
      | _ => .lineStart
    let ps := nodePieces inner f ++ text "(" ++ callArgs args (valuesOf args) ++ text ")"
    if place.isOperand then ps else finish place (.form .call [f, .group d args]) ps
  | .form .cast [e, k, t] =>
    finish place (.form .cast [e, k, t])
      (ibox step (ibox (-step) (nodePieces .value e) ++ space ++ text "as " ++
        nodePieces .value t))
  | .form .closure [binder, const, static, async, move, bar, params, bar', out, body] =>
    let inputs := rowPieces params
    let open' := text "|" ++
      match inputs with
      | [] => []
      | ps => zeroBreak ++ closureParams ps
    let head := nodePieces .value binder ++ optional "const" const ++ optional "static" static ++
      optional "async" async ++ optional "move" move
    let value := nodePieces .value body
    finish place (.form .closure [binder, const, static, async, move, bar, params, bar', out, body])
      (ibox 0 (head ++
        match rowPieces out with
        | [_, ty] =>
          cbox step (open' ++
            (if inputs.isEmpty then []
              else dedent [.brk { plainBreak 0 with ending := "," }]) ++ text "|") ++
            text " -> " ++ ty ++ text " " ++ neverBreak ++ value
        | _ =>
          cbox step (open' ++ text "|" ++ dedent space) ++ neverBreak ++
            if isBracketed body || closesLine body then value else bracedValue body value))
  | .form .constBlock [k, b] =>
    finish place (.form .constBlock [k, b])
      (text "const " ++ cbox step (smallBlock (aloneIn .lineStart b) (insideLines b)))
  | .form .continueExpr [k, l] =>
    finish place (.form .continueExpr [k, l])
      (text "continue" ++ if l.isAbsent then [] else text " " ++ nodePieces .value l)
  | .form .field [e, d, m] =>
    finishChain place (.form .field [e, d, m])
      (nodePieces (.operand place.atLineStart) e ++ chainBreak place e ++ text "." ++
        nodePieces .value m)
  | .form .forLoop [l, k, p, i, e, b] =>
    finish place (.form .forLoop [l, k, p, i, e, b])
      (ibox 0 ((rowPieces l).flatten ++ (if l.isAbsent then [] else text " ") ++ text "for " ++
        nodePieces .value p ++ text " in " ++ neverBreak ++ beforeBrace e (nodePieces .value e) ++
        bracedLines (insideLines b)))
  | .form .ifExpr [k, c, b, e] =>
    finish place (.form .ifExpr [k, c, b, e])
      (cbox step (text "if " ++ cbox (-step) (beforeBrace c (nodePieces .value c)) ++
        match elsePieces e with
        | some ps => smallBlock (aloneIn .lineStart b) (insideLines b) ++ ps
        | none =>
          let lines := insideLines b
          if lines.isEmpty then text "\x7b\x7d"
          else text "\x7b" ++ dedent (hardBreak ++ lines) ++ text "\x7d"))
  | .form .index [e, g] =>
    let inner : Place := match place with
      | .operand b => .operand b
      | .value => .value
      | _ => .lineStart
    let ps := nodePieces inner e ++ text "[" ++ (insideValues g).flatten ++ text "]"
    if place.isOperand then ps else finish place (.form .index [e, g]) ps
  | .form .letCond [k, p, o, e] =>
    finish place (.form .letCond [k, p, o, e])
      (ibox step (text "let " ++ nodePieces .value p ++ text " = " ++ neverBreak ++
        nodePieces .value e))
  | .form .loopExpr [l, k, b] =>
    finish place (.form .loopExpr [l, k, b])
      ((rowPieces l).flatten ++ (if l.isAbsent then [] else text " ") ++ text "loop \x7b" ++
        cbox step (dedent (hardBreakIfNonempty ++ insideLines b)) ++ text "\x7d")
  | .form .invocation [.path p, b, g] =>
    finish place (.form .invocation [.path p, b, g]) (invocationPieces p g)
  | .form .matchExpr [k, e, arms] =>
    finish place (.form .matchExpr [k, e, arms])
      (ibox 0 (text "match " ++ beforeBrace e (nodePieces .value e) ++
        bracedLines (insideLines arms)))
  | .form .arm [as, p, guard, _, body, _] =>
    (rowPieces as).flatten ++
      ibox 0 (nodePieces .value p ++
        (match rowPieces guard with
          | [_, e] => text " if " ++ e
          | _ => []) ++
        text " => " ++ nodePieces .armBody body) ++ hardBreak
  | .form .methodCall [e, d, m, turbofish, .group d' args] =>
    let unindent := !place.isOperand && place.atLineStart && isShortName e
    finishChain place (.form .methodCall [e, d, m, turbofish, .group d' args])
      (nodePieces (.operand place.atLineStart) e ++ chainBreak place e ++ text "." ++
        nodePieces .value m ++ nodePieces .value turbofish ++
        cbox (if unindent then -step else 0)
          (text "(" ++ callArgs args (valuesOf args) ++ text ")"))
  | .form .paren [g] =>
    finish place (.form .paren [g]) (text "(" ++ (insideValues g).flatten ++ text ")")
  | .form .range [a, o, b] =>
    finish place (.form .range [a, o, b])
      (nodePieces .value a ++ nodePieces .value o ++ nodePieces .value b)
  | .form .rawBorrow [a, r, m, e] =>
    finish place (.form .rawBorrow [a, r, m, e])
      (text "&raw " ++ nodePieces .value m ++ text " " ++ nodePieces .value e)
  | .form .borrow [a, m, e] =>
    finish place (.form .borrow [a, m, e])
      (text "&" ++ optional "mut" m ++ nodePieces .value e)
  | .form .repeated [.group d [e, s, n]] =>
    finish place (.form .repeated [.group d [e, s, n]])
      (text "[" ++ nodePieces .value e ++ text "; " ++ nodePieces .value n ++ text "]")
  | .form .returnExpr [k, e] =>
    finish place (.form .returnExpr [k, e])
      (text "return" ++ if e.isAbsent then [] else text " " ++ nodePieces .value e)
  | .form .structLit [p, g] =>
    let inner := fieldsBox (nodePieces .value p) (insideValues g) none
    finish place (.form .structLit [p, g])
      (cbox step (inner ++ if widthAll inner > 34 then [.strut] else []) ++ text "\x7d")
  | .form .fieldInit [as, m, c, e] =>
    (rowPieces as).flatten ++ nodePieces .value m ++
      if c.isAbsent then [] else text ": " ++ ibox 0 (nodePieces .value e)
  | .form .tryOp [e, q] =>
    finishChain place (.form .tryOp [e, q])
      (nodePieces (.operand place.atLineStart) e ++ text "?")
  | .form .tryBlock [k, b] =>
    finish place (.form .tryBlock [k, b])
      (text "try " ++ cbox step (smallBlock (aloneIn .lineStart b) (insideLines b)))
  | .form .tuple [.group d ns] =>
    match place, ns with
    | .armBody, [] => text "\x7b\x7d"
    | _, _ =>
      finish place (.form .tuple [.group d ns]) (text "(" ++ tupleBox (valuesOf ns) ++ text ")")
  | .form .unary [o, e] =>
    finish place (.form .unary [o, e]) (nodePieces .value o ++ nodePieces .value e)
  | .form .uncheckedBlock [k, b] =>
    finish place (.form .uncheckedBlock [k, b])
      (text "unsafe " ++ cbox step (smallBlock (aloneIn .lineStart b) (insideLines b)))
  | .form .whileLoop [l, k, c, b] =>
    finish place (.form .whileLoop [l, k, c, b])
      (ibox 0 ((rowPieces l).flatten ++ (if l.isAbsent then [] else text " ") ++ text "while " ++
        beforeBrace c (nodePieces .value c) ++ bracedLines (insideLines b)))
  | .form .yieldExpr [k, e] =>
    finish place (.form .yieldExpr [k, e])
      (text "yield" ++ if e.isAbsent then [] else text " " ++ nodePieces .value e)
  | .form .verbatim ns => [.unwritable ("Expr::Verbatim `" ++ rawText ns ++ "`")]
  | .form .letStmt [as, _, p, init, _] =>
    (rowPieces as).flatten ++
      statementLine (text "let " ++ nodePieces .value p ++
        match rowPieces init with
        | [_, e] => text " = " ++ neverBreak ++ e
        | [_, e, _, b] => text " = " ++ neverBreak ++ e ++ space ++ text "else " ++ b
        | _ => []) true
  | .form .exprStmt [e, semi] =>
    if e.isAbsent then []
    else
      statementLine (nodePieces .lineStart e)
        (if semi.isAbsent then addsSemicolon e else !dropsSemicolon e)
  | .form .invocationStmt [as, e, semi] =>
    (rowPieces as).flatten ++ nodePieces .value e ++
      (if semi.isAbsent then [] else text ";") ++ hardBreak
  | .form .itemStmt ns => text (rawText ns) ++ hardBreak
  | .form .bindingPat [r, m, n, sub] =>
    optional "ref" r ++ optional "mut" m ++ nodePieces .value n ++
      match rowPieces sub with
      | [_, p] => text " @ " ++ p
      | _ => []
  | .form .boxPat [_, p] => text "box " ++ nodePieces .value p
  | .form .orPat [_, ps] => alternatives true (orParts ps)
  | .form .borrowPat [_, m, p] => text "&" ++ optional "mut" m ++ nodePieces .value p
  | .form .restPat _ => text ".."
  | .form .slicePat [g] => text "[" ++ commaBox step (insideValues g) ++ text "]"
  | .form .structPat [p, g] =>
    cbox step (fieldsBox (nodePieces .value p) (insideValues g) none) ++ text "\x7d"
  | .form .fieldPat [as, m, c, p] =>
    (rowPieces as).flatten ++
      (if c.isAbsent then [] else nodePieces .value m ++ text ": ") ++ nodePieces .value p
  | .form .tupleStructPat [p, g] =>
    nodePieces .value p ++ text "(" ++ commaBox step (insideValues g) ++ text ")"
  | .form .typedPat [p, _, t] => nodePieces .value p ++ text ": " ++ nodePieces .value t
  | .form _ _ => []
/-- The patterns between bars. -/
def orParts : Node → List (List Piece)
  | .form .row ns => orList ns
  | _ => []
def orList : List Node → List (List Piece)
  | [] => []
  | n :: ns => if n.isOp "|" then orList ns else nodePieces .value n :: orList ns
end

end WrapperGen.Layout
