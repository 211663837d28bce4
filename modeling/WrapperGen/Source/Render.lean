import WrapperGen.Source.Ty
import WrapperGen.Text.Replace
/-!
# Phrases as text

`Ty.trees` and its companions give the tokens of a phrase; `showTrees` writes tokens on one line
with a space between any two that are not joint; `compact` then closes the gaps around angle
brackets, commas, path separators and references. `Ty.render` is the one-line text of a type.
-/

namespace WrapperGen.Source

/-- The place of a token that comes from no text. -/
def noPos : Pos := ⟨0, 0⟩

namespace Token

/-- The characters of an operator, each but the last joint with its successor. -/
def puncts (joint : Bool) : List Char → List Tree
  | [] => []
  | [c] => [.leaf (.punct (String.singleton c) joint) noPos]
  | c :: cs => .leaf (.punct (String.singleton c) true) noPos :: puncts joint cs

/-- A token as trees: one per character of an operator, and a sign apart from its number. -/
def trees : Token → List Tree
  | .punct text joint => puncts joint text.toList
  | .literal text =>
    match text.toList with
    | '-' :: digits => [.leaf (.op "-") noPos, .leaf (.literal (String.ofList digits)) noPos]
    | _ => [.leaf (.literal text) noPos]
  | t => [.leaf t noPos]

end Token

namespace Tree

def op (text : String) : List Tree := (Token.op text).trees
def word (text : String) : List Tree := [.leaf (.ident text) noPos]
def tick (name : String) : List Tree := [.leaf (.lifetime name) noPos]
def lit (text : String) : List Tree := [.leaf (.literal text) noPos]
def within (d : Delim) (inner : List Tree) : List Tree := [.group d inner noPos noPos]

/-- `sep` after all but the last, and after the last too if `trailing`. -/
def separated (sep : String) (trailing : Bool) : List (List Tree) → List Tree
  | [] => []
  | [t] => t ++ if trailing then op sep else []
  | t :: ts => t ++ op sep ++ separated sep trailing ts

def when (b : Bool) (ts : List Tree) : List Tree := if b then ts else []

end Tree

open Tree

/-- `<self as A>::B` from the trees of its parts. -/
def projectionTrees (self : List Tree) (position : Nat) (leading : Bool)
    (segments : List (List Tree)) : List Tree :=
  if position = 0 then
    op "<" ++ self ++ op ">" ++ when leading (op "::") ++ separated "::" false segments
  else
    op "<" ++ self ++ word "as" ++ when leading (op "::") ++
      separated "::" false (segments.take position) ++ op ">" ++
      (segments.drop position).flatMap (op "::" ++ ·)

mutual
def Ty.trees : Ty → List Tree
  | .array e n => within .bracket (e.trees ++ op ";" ++ n.trees)
  | .fnPointer b u abi ps tr v o =>
    binderTrees b ++ when u (word "unsafe") ++
      (match abi with
        | none => []
        | some none => word "extern"
        | some (some name) => word "extern" ++ lit name) ++
      word "fn" ++
      within .paren (separated "," tr (paramTrees ps) ++
        when (!v.isEmpty && !ps.isEmpty && !tr) (op ",") ++ nodesTrees v) ++
      outputTrees o
  | .implTrait bs tr => word "impl" ++ separated "+" tr (boundTrees bs)
  | .infer => word "_"
  | .never => op "!"
  | .invocation p n => p.trees ++ op "!" ++ n.trees
  | .paren e => within .paren e.trees
  | .path p => p.trees
  | .projection s n ⟨l, ss⟩ => projectionTrees s.trees n l (segmentTrees ss)
  | .pointer m e => op "*" ++ word (if m then "mut" else "const") ++ e.trees
  | .reference l m e => op "&" ++ (l.map tick).getD [] ++ when m (word "mut") ++ e.trees
  | .slice e => within .bracket e.trees
  | .traitObject d bs tr => when d (word "dyn") ++ separated "+" tr (boundTrees bs)
  | .tuple es tr => within .paren (separated "," (tr || es.length == 1) (tyTrees es))
  | .verbatim ts => nodesTrees ts
def Path.trees : Path → List Tree
  | ⟨l, ss⟩ => when l (op "::") ++ separated "::" false (segmentTrees ss)
def Segment.trees : Segment → List Tree
  | ⟨n, a⟩ => word n ++ a.trees
def Args.trees : Args → List Tree
  | .none => []
  | .angle t as tr =>
    when t (op "::") ++ op "<" ++ separated "," tr (genericArgTrees as) ++ op ">"
  | .paren ts tr o => within .paren (separated "," tr (tyTrees ts)) ++ outputTrees o
def GenericArg.trees : GenericArg → List Tree
  | .lifetime n => tick n
  | .type t => t.trees
  | .const n => n.trees
  | .assocType n a t => word n ++ a.trees ++ op "=" ++ t.trees
  | .assocConst n a v => word n ++ a.trees ++ op "=" ++ v.trees
  | .constraint n a bs tr => word n ++ a.trees ++ op ":" ++ separated "+" tr (boundTrees bs)
def Bound.trees : Bound → List Tree
  | .lifetime n => tick n
  | .trait inParens maybe b p =>
    let inner := when maybe (op "?") ++ binderTrees b ++ p.trees
    if inParens then within .paren inner else inner
  | .capture ps tr =>
    word "use" ++ op "<" ++
      separated "," tr (ps.map fun p => if p.startsWith "'" then tick p else word p) ++ op ">"
  | .verbatim ts => nodesTrees ts
def Binder.trees : Binder → List Tree
  | ⟨ps, tr⟩ => word "for" ++ op "<" ++ separated "," tr (genericParamTrees ps) ++ op ">"
def GenericParam.trees : GenericParam → List Tree
  | .lifetime a n bs =>
    nodesTrees a ++ tick n ++ when (!bs.isEmpty) (op ":" ++ separated "+" false (bs.map tick))
  | .type a n bs d =>
    nodesTrees a ++ word n ++ when (!bs.isEmpty) (op ":" ++ separated "+" false (boundTrees bs)) ++
      defaultTyTrees d
  | .const a n t d =>
    nodesTrees a ++ word "const" ++ word n ++ op ":" ++ t.trees ++ defaultTrees d
def FnPointerParam.trees : FnPointerParam → List Tree
  | ⟨a, n, t⟩ => nodesTrees a ++ ((n.map fun n => word n ++ op ":").getD []) ++ t.trees
def Node.trees : Node → List Tree
  | .token t => t.trees
  | .group d ns => within d (nodesTrees ns)
  | .type t => t.trees
  | .path p => p.trees
  | .projection s n ⟨l, ss⟩ => projectionTrees s.trees n l (segmentTrees ss)
  | .args a => a.trees
  | .binder b => b.trees
  | .form _ ns => nodesTrees ns
def tyTrees : List Ty → List (List Tree)
  | [] => []
  | t :: ts => t.trees :: tyTrees ts
def segmentTrees : List Segment → List (List Tree)
  | [] => []
  | s :: ss => s.trees :: segmentTrees ss
def genericArgTrees : List GenericArg → List (List Tree)
  | [] => []
  | a :: as => a.trees :: genericArgTrees as
def boundTrees : List Bound → List (List Tree)
  | [] => []
  | b :: bs => b.trees :: boundTrees bs
def genericParamTrees : List GenericParam → List (List Tree)
  | [] => []
  | p :: ps => p.trees :: genericParamTrees ps
def paramTrees : List FnPointerParam → List (List Tree)
  | [] => []
  | p :: ps => p.trees :: paramTrees ps
def nodesTrees : List Node → List Tree
  | [] => []
  | n :: ns => n.trees ++ nodesTrees ns
def binderTrees : Option Binder → List Tree
  | none => []
  | some b => b.trees
def outputTrees : Option Ty → List Tree
  | none => []
  | some t => op "->" ++ t.trees
def defaultTyTrees : Option Ty → List Tree
  | none => []
  | some t => op "=" ++ t.trees
def defaultTrees : Option Node → List Tree
  | none => []
  | some n => op "=" ++ n.trees
end

/-! ## One line of text -/

mutual
def Tree.show : Tree → String
  | .leaf (.ident s) _ => s
  | .leaf (.lifetime s) _ => s
  | .leaf (.literal s) _ => s
  | .leaf (.punct s _) _ => s
  | .group .paren ts _ _ => "(" ++ showTrees ts ++ ")"
  | .group .bracket ts _ _ => "[" ++ showTrees ts ++ "]"
  | .group .brace ts _ _ =>
    "\x7b " ++ showTrees ts ++ (if ts.isEmpty then "" else " ") ++ "\x7d"
/-- The trees on one line, a space after each that is not joint with the next. -/
def showTrees : List Tree → String
  | [] => ""
  | [t] => t.show
  | t :: ts =>
    t.show ++ (match t with
      | .leaf (.punct _ true) _ => ""
      | _ => " ") ++ showTrees ts
end

/-- Closes the gaps around angle brackets, commas, path separators and references. -/
def compact (s : String) : String :=
  [(" < ", "<"), (" >", ">"), ("< ", "<"), (" ,", ","), (" :: ", "::"), ("& ", "&")].foldl
    (fun s r => Text.replaceAll r.1 r.2 s) s

def Ty.render (t : Ty) : String := compact (showTrees t.trees)

def Path.render (p : Path) : String := compact (showTrees p.trees)

end WrapperGen.Source
