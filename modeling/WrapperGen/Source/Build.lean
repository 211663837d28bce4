import WrapperGen.Source.Ty
/-!
# Making expressions

One function for each form that generated code uses. The parts stand as they do in trees that
were read from a text.
-/

namespace WrapperGen.Source.Node

def call (f : Node) (args : List Node) : Node :=
  .form .call [f, .group .paren (commaSeparated args)]

/-- `receiver.name(args)`. -/
def invoke (receiver : Node) (name : String) (args : List Node) : Node :=
  .form .methodCall [receiver, op ".", word name, absent, .group .paren (commaSeparated args)]

/-- `receiver.name::<ty>(args)`. -/
def invokeAt (receiver : Node) (name : String) (ty : Ty) (args : List Node) : Node :=
  .form .methodCall
    [receiver, op ".", word name, .args (.angle true [.type ty] false),
      .group .paren (commaSeparated args)]

def named (name : String) : Node := .path (.single name)

def borrowMut (e : Node) : Node := .form .borrow [op "&", word "mut", e]

def orReturn (e : Node) : Node := .form .tryOp [e, op "?"]

def await (e : Node) : Node := .form .await [e, op ".", word "await"]

def unit : Node := .form .tuple [.group .paren []]

/-! ## Blocks and closures -/

def braces (statements : List Node) : Node := .group .brace statements

def block (statements : List Node) : Node := .form .block [absent, braces statements]

def asyncMove (statements : List Node) : Node :=
  .form .asyncBlock [word "async", word "move", braces statements]

def closure (moves : Bool) (params : List Node) (body : Node) : Node :=
  .form .closure
    [absent, absent, absent, absent, if moves then word "move" else absent, op "|",
      .form .row (commaSeparated params), op "|", absent, body]

/-! ## Statements -/

/-- The value of a block. -/
def value (e : Node) : Node := .form .exprStmt [e, absent]

/-- An expression and its semicolon. -/
def statement (e : Node) : Node := .form .exprStmt [e, op ";"]

def bind (pattern : Node) (e : Node) : Node :=
  .form .letStmt [absent, word "let", pattern, .form .row [op "=", e], op ";"]

/-! ## Patterns and branches -/

def binding (name : String) : Node := .form .bindingPat [absent, absent, word name, absent]

def bindingMut (name : String) : Node :=
  .form .bindingPat [absent, word "mut", word name, absent]

/-- `constructor(name)`. -/
def holding (constructor name : String) : Node :=
  .form .tupleStructPat [named constructor, .group .paren [binding name]]

def arm (pattern body : Node) : Node :=
  .form .arm [absent, pattern, absent, op "=>", body, absent]

/-- An arm with a comma. -/
def armComma (pattern body : Node) : Node :=
  .form .arm [absent, pattern, absent, op "=>", body, comma]

def matchOn (e : Node) (arms : List Node) : Node :=
  .form .matchExpr [word "match", e, braces arms]

def ifElse (condition : Node) (yes no : List Node) : Node :=
  .form .ifExpr
    [word "if", condition, braces yes, .form .row [word "else", block no]]

/-- `if let pattern = e` without an `else`. -/
def ifLet (pattern e : Node) (yes : List Node) : Node :=
  .form .ifExpr [word "if", .form .letCond [word "let", pattern, op "=", e], braces yes, absent]

end WrapperGen.Source.Node
