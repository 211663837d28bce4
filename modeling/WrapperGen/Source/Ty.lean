import WrapperGen.Source.Token
/-!
# Types and other phrases

The syntax tree. Types, paths and bounds have a constructor for each way to write them, because the
generator looks into them. Expressions, patterns and statements occur only inside types (a length,
a constant argument) and in method bodies; they are trees of one kind, `Node`: a `Form` with its
parts in the order of the text, brackets and separators included. A part that is optional and not
there is the form `absent`.
-/

namespace WrapperGen.Source

/-- The kinds of phrase below the level of types, each with its parts. -/
inductive Form
  /-- No parts: something optional that was left out. -/
  | absent
  /-- Parts that stand in a row and have no meaning of their own. -/
  | row
  /-- An attribute: `#`, `!` if it stands inside what it belongs to, and the group of its path and
  its tokens. -/
  | attr
  /-- Attributes (a row) and what carries them. -/
  | attributed
  /-- A bracketed list of expressions. -/
  | array
  /-- Target, `=`, value. -/
  | assign
  /-- `async`, `move`, block. -/
  | asyncBlock
  /-- Operand, `.`, `await`. -/
  | await
  /-- Left operand, operator, right operand. -/
  | binary
  /-- Label with its colon, block. -/
  | block
  /-- `break`, label, value. -/
  | breakExpr
  /-- Function, argument list. -/
  | call
  /-- Operand, `as`, type. -/
  | cast
  /-- Binder, `const`, `static`, `async`, `move`, `|`, parameters (a row), `|`, arrow with type
  (a row), body. -/
  | closure
  /-- `const`, block. -/
  | constBlock
  /-- `continue`, label. -/
  | continueExpr
  /-- Operand, `.`, member. -/
  | field
  /-- Label, `for`, pattern, `in`, expression, block. -/
  | forLoop
  /-- `if`, condition, block, `else` with what follows it (a row). -/
  | ifExpr
  /-- Operand, bracketed index. -/
  | index
  /-- `let`, pattern, `=`, expression. -/
  | letCond
  /-- Label, `loop`, block. -/
  | loopExpr
  /-- Path, `!`, token group. -/
  | invocation
  /-- `match`, expression, group of arms. -/
  | matchExpr
  /-- Attributes, pattern, guard (a row), `=>`, body, comma. -/
  | arm
  /-- Receiver, `.`, name, type arguments, argument list. -/
  | methodCall
  /-- An expression or pattern in parentheses. -/
  | paren
  /-- Start, operator, end. -/
  | range
  /-- `&`, `raw`, `const` or `mut`, operand. -/
  | rawBorrow
  /-- `&`, `mut`, operand. -/
  | borrow
  /-- The group of an element, `;` and a length. -/
  | repeated
  /-- `return`, value. -/
  | returnExpr
  /-- Path, group of fields. -/
  | structLit
  /-- Attributes, member, `:`, value. -/
  | fieldInit
  /-- Operand, `?`. -/
  | tryOp
  /-- `try`, block. -/
  | tryBlock
  /-- A parenthesised list of expressions or patterns. -/
  | tuple
  /-- Operator, operand. -/
  | unary
  /-- The keyword of an unchecked block, block. -/
  | uncheckedBlock
  /-- Label, `while`, condition, block. -/
  | whileLoop
  /-- `yield`, value. -/
  | yieldExpr
  /-- Tokens that are kept as they are. -/
  | verbatim
  /-- Attributes, `let`, pattern, initialiser (a row), `;`. -/
  | letStmt
  /-- Expression, `;`. -/
  | exprStmt
  /-- Attributes, path, `!`, token group, `;`. -/
  | invocationStmt
  /-- The tokens of an item. -/
  | itemStmt
  /-- `ref`, `mut`, name, `@` with pattern (a row). -/
  | bindingPat
  /-- `box`, pattern. -/
  | boxPat
  /-- Leading `|`, alternatives with their separators (a row). -/
  | orPat
  /-- `&`, `mut`, pattern. -/
  | borrowPat
  /-- `..`. -/
  | restPat
  /-- A bracketed list of patterns. -/
  | slicePat
  /-- Path, group of field patterns. -/
  | structPat
  /-- Attributes, member, `:`, pattern. -/
  | fieldPat
  /-- Path, parenthesised list of patterns. -/
  | tupleStructPat
  /-- Pattern, `:`, type. -/
  | typedPat
deriving DecidableEq, Repr, Inhabited

mutual
/-- A type as written. `projection self n path` is `<self as A>::B`, where the first `n` segments
of `path` name the trait. -/
inductive Ty
  | array (elem : Ty) (length : Node)
  | fnPointer (binder : Option Binder) (unchecked : Bool) (abi : Option (Option String))
      (params : List FnPointerParam) (trailing : Bool) (variadic : List Node) (output : Option Ty)
  | implTrait (bounds : List Bound) (trailing : Bool)
  | infer
  | never
  | invocation (path : Path) (tokens : Node)
  | paren (elem : Ty)
  | path (path : Path)
  | projection (self : Ty) (position : Nat) (path : Path)
  | pointer (mutable : Bool) (elem : Ty)
  | reference (lifetime : Option String) (mutable : Bool) (elem : Ty)
  | slice (elem : Ty)
  | traitObject (hasDyn : Bool) (bounds : List Bound) (trailing : Bool)
  | tuple (elems : List Ty) (trailing : Bool)
  | verbatim (tokens : List Node)
structure Path where
  leading : Bool
  segments : List Segment
structure Segment where
  name : String
  args : Args
/-- What a path segment is applied to. Among angle brackets lifetimes come first. -/
inductive Args
  | none
  | angle (turbofish : Bool) (args : List GenericArg) (trailing : Bool)
  | paren (inputs : List Ty) (trailing : Bool) (output : Option Ty)
inductive GenericArg
  | lifetime (name : String)
  | type (ty : Ty)
  | const (value : Node)
  | assocType (name : String) (args : Args) (ty : Ty)
  | assocConst (name : String) (args : Args) (value : Node)
  | constraint (name : String) (args : Args) (bounds : List Bound) (trailing : Bool)
inductive Bound
  | lifetime (name : String)
  | trait (inParens : Bool) (maybe : Bool) (binder : Option Binder) (path : Path)
  | capture (params : List String) (trailing : Bool)
  | verbatim (tokens : List Node)
/-- The parameters after `for`. -/
structure Binder where
  params : List GenericParam
  trailing : Bool
inductive GenericParam
  | lifetime (attrs : List Node) (name : String) (bounds : List String)
  | type (attrs : List Node) (name : String) (bounds : List Bound) (default : Option Ty)
  | const (attrs : List Node) (name : String) (ty : Ty) (default : Option Node)
structure FnPointerParam where
  attrs : List Node
  name : Option String
  ty : Ty
/-- An expression, a pattern, a statement or a token. -/
inductive Node
  | token (token : Token)
  | group (delim : Delim) (inner : List Node)
  | type (ty : Ty)
  | path (path : Path)
  | projection (self : Ty) (position : Nat) (path : Path)
  | args (args : Args)
  | binder (binder : Binder)
  | form (form : Form) (parts : List Node)
end

instance : Inhabited Path := ⟨⟨false, []⟩⟩
instance : Inhabited Ty := ⟨.infer⟩
instance : Inhabited Node := ⟨.form .absent []⟩
instance : Inhabited Segment := ⟨⟨"", .none⟩⟩

namespace Segment

def plain (name : String) : Segment := ⟨name, .none⟩

/-- Whether the segment has no arguments. -/
def isPlain (s : Segment) : Bool := s.args matches .none

end Segment

namespace Path

/-- The path of one name. -/
def single (name : String) : Path := ⟨false, [.plain name]⟩

/-- A path of plain names. -/
def ofNames (names : List String) : Path := ⟨false, names.map .plain⟩

def names (p : Path) : List String := p.segments.map (·.name)

/-- No segment has arguments, as in the paths of modules and of attributes. -/
def isPlain (p : Path) : Bool := p.segments.all Segment.isPlain

/-- Whether the last segment is `name`, whatever its arguments. -/
def endsIn (p : Path) (name : String) : Bool := p.segments.getLast?.any (·.name == name)

/-- Whether the path is `name` and nothing else. -/
def isSingle (p : Path) (name : String) : Bool :=
  match p.segments with
  | [s] => !p.leading && s.isPlain && s.name == name
  | _ => false

/-- The path with one more plain name. -/
def child (p : Path) (name : String) : Path := { p with segments := p.segments ++ [.plain name] }

end Path

namespace Node

def absent : Node := .form .absent []
def word (text : String) : Node := .token (.ident text)
def op (text : String) : Node := .token (.op text)
def comma : Node := op ","

def isAbsent : Node → Bool
  | .form .absent _ => true
  | _ => false

def isOp (text : String) : Node → Bool
  | .token (.punct t _) => t == text
  | _ => false

def isComma : Node → Bool := isOp ","

/-- The elements of a list, without the commas between them. -/
def elements (parts : List Node) : List Node := parts.filter (!·.isComma)

/-- Elements with commas between them. -/
def commaSeparated : List Node → List Node
  | [] => []
  | [n] => [n]
  | n :: ns => n :: comma :: commaSeparated ns

mutual
/-- A token tree as it stands. -/
def ofTree : Tree → Node
  | .leaf t _ => .token t
  | .group d ts _ _ => .group d (ofTrees ts)
def ofTrees : List Tree → List Node
  | [] => []
  | t :: ts => ofTree t :: ofTrees ts
end

end Node

namespace Ty

/-- The type named by one plain name. -/
def named (name : String) : Ty := .path (.single name)

/-- The types that a path is applied to by its last segment. -/
def argumentTypes : Args → List Ty
  | .angle _ args _ => args.filterMap fun
    | .type t => some t
    | _ => none
  | _ => []

end Ty

/-! ## The type paths in a type -/

mutual
/-- Every path that is used as a type, at any depth: the outer path before those in its arguments,
else in the order of the text. -/
def Ty.paths : Ty → List Path
  | .array e n => e.paths ++ n.paths
  | .fnPointer b _ _ ps _ _ o => binderPaths b ++ paramsPaths ps ++ outputPaths o
  | .implTrait bs _ => boundsPaths bs
  | .infer => []
  | .never => []
  | .invocation _ _ => []
  | .paren e => e.paths
  | .path p => p :: p.argPaths
  | .projection s _ p => s.paths ++ p.argPaths
  | .pointer _ e => e.paths
  | .reference _ _ e => e.paths
  | .slice e => e.paths
  | .traitObject _ bs _ => boundsPaths bs
  | .tuple es _ => tysPaths es
  | .verbatim _ => []
/-- The type paths in the arguments of a path. -/
def Path.argPaths : Path → List Path
  | ⟨_, ss⟩ => segmentsPaths ss
def Segment.argPaths : Segment → List Path
  | ⟨_, a⟩ => a.paths
def Args.paths : Args → List Path
  | .none => []
  | .angle _ as _ => genericArgsPaths as
  | .paren ts _ o => tysPaths ts ++ outputPaths o
def GenericArg.paths : GenericArg → List Path
  | .lifetime _ => []
  | .type t => t.paths
  | .const n => n.paths
  | .assocType _ a t => a.paths ++ t.paths
  | .assocConst _ a n => a.paths ++ n.paths
  | .constraint _ a bs _ => a.paths ++ boundsPaths bs
def Bound.paths : Bound → List Path
  | .lifetime _ => []
  | .trait _ _ b p => binderPaths b ++ p.argPaths
  | .capture _ _ => []
  | .verbatim _ => []
def Binder.paths : Binder → List Path
  | ⟨ps, _⟩ => genericParamsPaths ps
def GenericParam.paths : GenericParam → List Path
  | .lifetime _ _ _ => []
  | .type _ _ bs d => boundsPaths bs ++ outputPaths d
  | .const _ _ t d => t.paths ++ defaultPaths d
def FnPointerParam.paths : FnPointerParam → List Path
  | ⟨_, _, t⟩ => t.paths
def Node.paths : Node → List Path
  | .token _ => []
  | .group _ ns => nodesPaths ns
  | .type t => t.paths
  | .path p => p.argPaths
  | .projection s _ p => s.paths ++ p.argPaths
  | .args a => a.paths
  | .binder b => b.paths
  | .form _ ns => nodesPaths ns
def tysPaths : List Ty → List Path
  | [] => []
  | t :: ts => t.paths ++ tysPaths ts
def segmentsPaths : List Segment → List Path
  | [] => []
  | s :: ss => s.argPaths ++ segmentsPaths ss
def genericArgsPaths : List GenericArg → List Path
  | [] => []
  | a :: as => a.paths ++ genericArgsPaths as
def boundsPaths : List Bound → List Path
  | [] => []
  | b :: bs => b.paths ++ boundsPaths bs
def genericParamsPaths : List GenericParam → List Path
  | [] => []
  | p :: ps => p.paths ++ genericParamsPaths ps
def paramsPaths : List FnPointerParam → List Path
  | [] => []
  | p :: ps => p.paths ++ paramsPaths ps
def nodesPaths : List Node → List Path
  | [] => []
  | n :: ns => n.paths ++ nodesPaths ns
def binderPaths : Option Binder → List Path
  | none => []
  | some b => b.paths
def outputPaths : Option Ty → List Path
  | none => []
  | some t => t.paths
def defaultPaths : Option Node → List Path
  | none => []
  | some n => n.paths
end

end WrapperGen.Source
