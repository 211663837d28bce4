import WrapperGen.Source.Grammar
/-!
# Reading types, paths, bounds and generics
-/

namespace WrapperGen.Source

open Reader

namespace Grammar

variable (g : Grammar)

/-! ## Attributes -/

/-- A path of plain words, keywords allowed. -/
def attributePath : Reader Path := do
  let leading := (← op? "::").isSome
  let first ← anyWord
  let more ← manyWhile (peekOp "::") do
    let _ ← op "::"
    anyWord
  return ⟨leading, (first :: more).map .plain⟩

/-- What follows the path of an attribute: nothing, a token group or a value. -/
def attributeBody : Reader (List Node) := do
  let ts ← rest
  if peekGroup .paren ts || peekGroup .bracket ts || peekGroup .brace ts then
    let (d, inner) ← rawGroup
    return [.group d (Node.ofTrees inner)]
  else if peekOp "=" ts && !peekOp "==" ts && !peekOp "=>" ts then
    let eq ← op "="
    match ← ahead? literal with
    | some (l, c) =>
      if c.rest.isEmpty then set c; return [eq, l]
    | none => pure ()
    let ts ← rest
    if peekOp "#" ts && peekGroup .bracket (ts.drop 1) then
      failRule "unexpected attribute inside of attribute"
    return [eq, ← g.expr true]
  else return []

def attributeGroup : Reader Attribute :=
  within .bracket do
    let path ← attributePath
    return ⟨path, ← g.attributeBody⟩

def outerAttribute : Reader Attribute := do
  let _ ← op "#"
  g.attributeGroup

def outerAttributes : Reader (List Attribute) := manyWhile (peekOp "#") g.outerAttribute

def innerAttributes : Reader (List Attribute) :=
  manyWhile (fun ts => peekOp "#" ts && peekOp "!" (ts.drop 1)) do
    let _ ← op "#"
    let _ ← op "!"
    g.attributeGroup

end Grammar

/-- Attributes as one part. -/
def attributesNode (as : List Attribute) : Node :=
  if as.isEmpty then .absent else .form .row (as.map Attribute.node)

namespace Grammar

variable (g : Grammar)

/-! ## Generic arguments -/

/-- A literal or a block. -/
def constArgument : Reader Node := do
  let ts ← rest
  if peekLit ts then literal
  else if peekGroup .brace ts then
    return .form .block [.absent, .group .brace (← within .brace g.statements)]
  else failExpected []

/-- A lifetime or a name in `use<…>`. -/
def captureParam : Reader String := do
  let ts ← rest
  if peekLifetime ts then lifetime
  else if peekName ts || peekWord "Self" ts then anyWord
  else failExpected ["lifetime", "identifier"]

/-- What may begin another bound after `+`. -/
def beginsBound (allowConst : Bool) (ts : List Tree) : Bool :=
  peekAnyWord ts || peekOp "::" ts || peekOp "?" ts || peekLifetime ts || peekGroup .paren ts ||
    (allowConst && peekGroup .bracket ts)

/-- Lifetimes go before all other arguments; a comma stays with the argument in front of it. -/
def lifetimesFirst {α : Type} (isLifetime : α → Bool) (args : List (α × Bool)) : List α × Bool :=
  let sorted := args.filter (isLifetime ·.1) ++ args.filter (!isLifetime ·.1)
  (sorted.map (·.1), (sorted.getLast?.map (·.2)).getD false)

end Grammar

/-- The readers of paths and bounds, one level down from the grammar they are built on. -/
structure PathGrammar where
  /-- A path; the flag marks the style of expressions, where arguments follow `::`. -/
  path : Bool → Reader Path
  /-- A bound; the flags allow `use<…>` and `const`. -/
  bound : Bool → Bool → Reader Bound
  generics : Reader Generics

namespace Grammar

variable (g : Grammar)

def bareParam : Reader FnPointerParam := do
  let ty ← g.ty true
  return ⟨[], none, ty⟩

/-- The arrow and the type of a result. -/
def output (allowPlus : Bool) : Reader (Option Ty) := do
  if ← test (peekOp "->") then
    let _ ← op "->"
    return some (← g.ty allowPlus)
  else return none

def parenArgs : Reader Args := do
  let (inputs, trailing) ← within .paren (commaList (g.ty true))
  return .paren inputs trailing (← g.output false)

/-! ## Paths

Arguments, bounds and binders contain each other only through types, except that a constraint
`Item: Bound` and a binder hold bounds. Those go one level down through `inner`. -/

section Inner

variable (inner : PathGrammar)

def binder : Reader Binder := do
  let _ ← word "for"
  let gs ← inner.generics
  return ⟨gs.params, gs.trailing⟩

def binder? : Reader (Option Binder) := do
  if ← test (peekWord "for") then return some (← binder inner) else return none

def genericArg : Reader GenericArg := do
  let ts ← rest
  if peekLifetime ts && !peekOp "+" (ts.drop 1) then return .lifetime (← lifetime)
  if peekLit ts || peekGroup .brace ts then return .const (← g.constArgument)
  let ty ← g.ty true
  match ty with
  | .path ⟨false, [⟨name, args⟩]⟩ =>
    if args matches .paren .. then return .type ty
    if (← op? "=").isSome then
      let ts ← rest
      if peekLit ts || peekGroup .brace ts then
        return .assocConst name args (← g.constArgument)
      else return .assocType name args (← g.ty true)
    if (← op? ":").isSome then
      let (bounds, trailing) ← boundsUntil
      return .constraint name args bounds trailing
    return .type ty
  | _ => return .type ty
where
  /-- Bounds up to a comma or the closing angle bracket. -/
  boundsUntil : Reader (List Bound × Bool) := do
    let stop := fun ts => peekOp "," ts || peekOp ">" ts
    let items ← many do
      if ← test stop then return none
      let b ← inner.bound false true
      if ← test (peekOp "+") then
        let _ ← op "+"
        return some (b, true)
      else return some (b, false)
    return (items.map (·.1), (items.getLast?.map (·.2)).getD false)

/-- Arguments in angle brackets. -/
def angleArgs : Reader Args := do
  let turbofish := (← op? "::").isSome
  let _ ← op "<"
  let args ← argList ((← rest).length + 1)
  let _ ← op ">"
  let (args, trailing) := lifetimesFirst (· matches .lifetime _) args
  return .angle turbofish args trailing
where
  argList : Nat → Reader (List (GenericArg × Bool))
    | 0 => return []
    | fuel + 1 => do
      if ← test (peekOp ">") then return []
      let a ← g.genericArg inner
      if ← test (peekOp ">") then return [(a, false)]
      let _ ← op ","
      return (a, true) :: (← argList fuel)

def segment (exprStyle : Bool) : Reader Segment := do
  let ts ← rest
  if ["super", "self", "crate", "try"].any (peekWord · ts) then return .plain (← anyWord)
  let name ← if peekWord "Self" ts then anyWord else name
  let ts ← rest
  if (!exprStyle && peekOp "<" ts && !peekOp "<=" ts && !peekOp "<<=" ts) ||
      (peekOp "::" ts && peekOp "<" (ts.drop 2)) then
    return ⟨name, ← g.angleArgs inner⟩
  else return .plain name

/-- More segments after the first. -/
def moreSegments (exprStyle : Bool) : Reader (List Segment) :=
  manyWhile (fun ts => peekOp "::" ts && !peekGroup .paren (ts.drop 2)) do
    let _ ← op "::"
    g.segment inner exprStyle

def pathWith (exprStyle : Bool) : Reader Path := do
  let leading := (← op? "::").isSome
  let first ← g.segment inner exprStyle
  return ⟨leading, first :: (← g.moreSegments inner exprStyle)⟩

/-! ## Bounds -/

def capture : Reader Bound := do
  let _ ← word "use"
  let _ ← op "<"
  let (params, trailing) ← separatedUntil (peekOp ">") captureParam ","
  let _ ← op ">"
  let last := params.length - 1
  let (params, trailing) := lifetimesFirst (·.startsWith "'")
    (params.zipIdx.map fun (p, i) => (p, i < last || trailing))
  return .capture params trailing

/-- A trait with its modifiers; nothing if it is `const`, which has no form of its own. -/
def traitBound (allowConst : Bool) : Reader (Option Bound) := do
  let before ← binder? inner
  let ts ← rest
  let pos := (← get).pos
  let isConst ←
    if peekGroup .bracket ts then
      within .bracket (do let _ ← word "const")
      if allowConst then pure true
      else throw ⟨pos, .rule "`[const]` is not allowed here" false⟩
    else if peekWord "const" ts then
      let _ ← word "const"
      if allowConst then pure true
      else throw ⟨pos, .rule "`const` is not allowed here" false⟩
    else pure false
  let maybe := (← op? "?").isSome
  let after ← if before.isNone && maybe then binder? inner else pure none
  let path ← g.pathWith inner false
  let ts ← rest
  let plainLast := path.segments.getLast?.any Segment.isPlain
  let path ←
    if plainLast && (peekGroup .paren ts || (peekOp "::" ts && peekGroup .paren (ts.drop 2))) then
      let _ ← op? "::"
      let args ← g.parenArgs
      pure { path with
        segments := path.segments.dropLast ++
          (path.segments.getLast?.map fun s => { s with args }).toList }
    else pure path
  if isConst then return none
  else return some (.trait false maybe (before <|> after) path)

def boundWith (allowCapture allowConst : Bool) : Reader Bound := do
  let ts ← rest
  let pos := (← get).pos
  if peekLifetime ts then return .lifetime (← lifetime)
  if peekWord "use" ts then
    let b ← capture
    if allowCapture then return b
    else throw ⟨pos, .rule "`use<...>` precise capturing syntax is not allowed here" false⟩
  if peekGroup .paren ts then
    match ← within .paren (g.traitBound inner allowConst) with
    | some (.trait _ maybe b p) => return .trait true maybe b p
    | _ => return .verbatim (← takenSince ts)
  else
    match ← g.traitBound inner allowConst with
    | some b => return b
    | none => return .verbatim (← takenSince ts)

/-! ## Generic parameters -/

/-- Bounds up to a place where `stop` holds, with `+` between them. -/
def boundsWhile (stop : List Tree → Bool) : Reader (List Bound × Bool) := do
  let items ← go ((← rest).length + 1)
  return (items.map (·.1), (items.getLast?.map (·.2)).getD false)
where
  go : Nat → Reader (List (Bound × Bool))
    | 0 => return []
    | fuel + 1 => do
      if ← test stop then return []
      let b ← g.boundWith inner false true
      if ← test (peekOp "+") then
        let _ ← op "+"
        return (b, true) :: (← go fuel)
      else return [(b, false)]

/-- Lifetimes up to a place where `stop` holds, with `+` between them. -/
def lifetimesWhile (stop : List Tree → Bool) : Nat → Reader (List String)
  | 0 => return []
  | fuel + 1 => do
    if ← test stop then return []
    let l ← lifetime
    if ← test (peekOp "+") then
      let _ ← op "+"
      return l :: (← lifetimesWhile stop fuel)
    else return [l]

def endsParam (ts : List Tree) : Bool := peekOp "," ts || peekOp ">" ts

def lifetimeParam (attrs : List Node) : Reader GenericParam := do
  let name ← lifetime
  let bounds ←
    if (← op? ":").isSome then lifetimesWhile endsParam ((← rest).length + 1) else pure []
  return .lifetime attrs name bounds

def typeParam (attrs : List Node) (name : Reader String) : Reader GenericParam := do
  let name ← name
  let bounds ←
    if (← op? ":").isSome then
      g.boundsWhile inner fun ts => endsParam ts || peekOp "=" ts
    else pure ([], false)
  let default ← if (← op? "=").isSome then some <$> g.ty true else pure none
  return .type attrs name bounds.1 default

def constParam (attrs : List Node) : Reader GenericParam := do
  let _ ← word "const"
  let name ← name
  let _ ← op ":"
  let ty ← g.ty true
  let default ← if (← op? "=").isSome then some <$> g.constArgument else pure none
  return .const attrs name ty default

def genericParam : Reader GenericParam := do
  let attrs := (← g.outerAttributes).map Attribute.node
  let ts ← rest
  if peekLifetime ts then lifetimeParam attrs
  else if peekName ts then g.typeParam inner attrs name
  else if peekWord "const" ts then g.constParam attrs
  else if peekWord "_" ts then g.typeParam inner attrs anyWord
  else failExpected ["lifetime", "identifier", "`const`"]

/-- The parameters in angle brackets, which must be there. -/
def angleParams : Reader Generics := do
  let _ ← op "<"
  let (params, trailing) ← separatedUntil (peekOp ">") (g.genericParam inner) ","
  let _ ← op ">"
  return ⟨true, params, trailing, none⟩

end Inner

/-- Paths, bounds and parameters, `depth` of them inside each other. -/
def paths : Nat → PathGrammar
  | 0 => ⟨fun _ => failExpected [], fun _ _ => failExpected [], failExpected []⟩
  | depth + 1 =>
    { path := fun style c => g.pathWith (paths depth) style c
      bound := fun cap const c => g.boundWith (paths depth) cap const c
      generics := fun c => g.angleParams (paths depth) c }

/-- The readers of paths for what is left. Each level of nesting takes a token, maybe one in
brackets. -/
def inner : Reader PathGrammar := do return g.paths (Tree.sizes (← rest) + 1)

def path (exprStyle : Bool) : Reader Path := do (← g.inner).path exprStyle

def bound (allowCapture allowConst : Bool) : Reader Bound := do
  (← g.inner).bound allowCapture allowConst

/-- The parameters in angle brackets, if there are any. -/
def generics : Reader Generics := do
  if ← test (peekOp "<") then (← g.inner).generics else return .none

def binderHere? : Reader (Option Binder) := do binder? (← g.inner)

/-- Several bounds joined by `+`. -/
def bounds (allowPlus allowCapture allowConst : Bool) : Nat → Reader (List Bound × Bool)
  | 0 => return ([], false)
  | fuel + 1 => do
    let b ← g.bound allowCapture allowConst
    if !(allowPlus && (← test (peekOp "+"))) then return ([b], false)
    let _ ← op "+"
    let more := fun ts => beginsBound allowConst ts || (allowConst && peekWord "const" ts)
    if !(← test more) then return ([b], true)
    let (bs, trailing) ← bounds allowPlus allowCapture allowConst fuel
    return (b :: bs, trailing)

/-- Bounds up to a place where `stop` holds. -/
def boundsTo (stop : List Tree → Bool) : Reader (List Bound × Bool) := do
  g.boundsWhile (← g.inner) stop

/-- A path with plain segments only, as in imports of modules and names of item invocations. -/
def plainPath : Reader Path := do
  let leading := (← op? "::").isSome
  let begins := fun ts => peekName ts || ["super", "self", "Self", "crate"].any (peekWord · ts)
  if !(← test begins) then let _ ← name
  let first ← anyWord
  let more ← manyWhile (fun ts => peekOp "::" ts && begins (ts.drop 2)) do
    let _ ← op "::"
    anyWord
  if ← test (peekOp "::") then
    let _ ← op "::"
    failRule "expected path segment after `::`"
  return ⟨leading, (first :: more).map .plain⟩

/-- A path that may start with a type in angle brackets. -/
def qualifiedPath (exprStyle : Bool) : Reader (Sum Path (Ty × Nat × Path)) := do
  if !(← test (peekOp "<")) then return .inl (← g.path exprStyle)
  let _ ← op "<"
  let self ← g.ty true
  let trait ← if ← test (peekWord "as") then
      let _ ← word "as"
      some <$> g.path false
    else pure none
  let _ ← op ">"
  let _ ← op "::"
  let inner ← g.inner
  let first ← g.segment inner exprStyle
  let more ← manyWhile (peekOp "::") do
    let _ ← op "::"
    g.segment inner exprStyle
  match trait with
  | some p => return .inr (self, p.segments.length, { p with segments := p.segments ++ first :: more })
  | none => return .inr (self, 0, ⟨true, first :: more⟩)

/-! ## Types -/

def abi : Reader (Option (Option String)) := do
  if !(← test (peekWord "extern")) then return none
  let _ ← word "extern"
  if ← test peekTextLit then
    match ← literal with
    | .token (.literal t) => return some (some t)
    | _ => return some none
  else return some none

/-- A parameter of a function pointer. Only the first may be a `self`, which has no use and is
kept as its tokens. -/
def fnPointerParam (attrs : List Node) (allowSelf : Bool) : Reader FnPointerParam := do
  let attrs := attrs ++ (← g.outerAttributes).map Attribute.node
  let start ← rest
  let mutSelf := allowSelf && peekWord "mut" start && peekWord "self" (start.drop 1)
  if mutSelf then let _ ← word "mut"
  let ts ← rest
  let named := (peekName ts || peekWord "_" ts || (allowSelf && peekWord "self" ts)) &&
    peekOp ":" (ts.drop 1) && !peekOp "::" (ts.drop 1)
  let name ←
    if named then
      let n ← anyWord
      let _ ← op ":"
      pure (some n)
    else pure none
  if mutSelf then
    if name.isNone then let _ ← word "self"
    else let _ ← g.ty true
    return ⟨attrs, none, .verbatim (← takenSince start)⟩
  else return ⟨attrs, name, ← g.ty true⟩

/-- The parameters of a function pointer, and what stands for further ones. -/
def fnPointerParams : Bool → Nat → Reader (List FnPointerParam × Bool × List Node)
  | _, 0 => return ([], false, [])
  | first, fuel + 1 => do
    if (← rest).isEmpty then return ([], !first, [])
    let attrs := (← g.outerAttributes).map Attribute.node
    let ts ← rest
    if peekOp "..." ts || ((peekName ts || peekWord "_" ts) && peekOp ":" (ts.drop 1) &&
        peekOp "..." (ts.drop 2)) then
      let name ←
        if peekName ts || peekWord "_" ts then
          let n ← anyWord
          pure [.word n, ← op ":"]
        else pure []
      let dots ← op "..."
      let comma := (← op? ",").toList
      return ([], !first, attrs ++ name ++ dots :: comma)
    let p ← g.fnPointerParam attrs first
    if (← rest).isEmpty then return ([p], false, [])
    let _ ← op ","
    let (ps, trailing, variadic) ← fnPointerParams false fuel
    return (p :: ps, trailing, variadic)

def fnPointer (binder : Option Binder) : Reader Ty := do
  let own ← g.binderHere?
  let unchecked := (← word? "unsafe").isSome
  let abi ← abi
  let _ ← word "fn"
  let (params, trailing, variadic) ←
    within .paren (do g.fnPointerParams true ((← rest).length + 1))
  return .fnPointer (binder <|> own) unchecked abi params trailing variadic (← g.output false)

/-- Bounds of a trait object, one of which must be a trait. -/
def objectBounds (pos : Pos) (allowPlus : Bool) : Reader (List Bound × Bool) := do
  let (bs, trailing) ← g.bounds allowPlus false false ((← rest).length + 1)
  if bs.any (· matches .trait ..) then return (bs, trailing)
  else throw ⟨pos, .rule "at least one trait is required for an object type" false⟩

/-- What the parentheses of a type contain. -/
inductive ParenContent
  | unit
  | lifetimes (ty : Ty)
  | maybe (bound : Bound)
  | single (ty : Ty)
  | tuple (elems : List Ty) (trailing : Bool)

def parenContent : Reader ParenContent := do
  let ts ← rest
  if ts.isEmpty then return .unit
  if peekLifetime ts then
    let (bs, trailing) ← g.objectBounds (← get).pos true
    return .lifetimes (.traitObject false bs trailing)
  if peekOp "?" ts then
    match ← g.traitBound (← g.inner) false with
    | some (.trait _ maybe b p) => return .maybe (.trait true maybe b p)
    | _ => failExpected []
  let first ← g.ty true
  if !(← test (peekOp ",")) then return .single first
  let _ ← op ","
  let (elems, trailing) ← commaList (g.ty true)
  return .tuple (first :: elems) (trailing || elems.isEmpty)

/-- Further bounds of a bare trait object, each after a `+`. -/
def plusBounds : Reader (List Bound) :=
  manyWhile (peekOp "+") do
    let _ ← op "+"
    g.bound false false

/-- A parenthesised type as the first bound of a trait object, if it can be one. -/
def asFirstBound : Ty → Option Bound
  | .path p => some (.trait true false none p)
  | .traitObject false [.trait _ maybe b p] false => some (.trait true maybe b p)
  | .traitObject false [b] false => some b
  | _ => none

def parenType (allowPlus : Bool) : Reader Ty := do
  match ← within .paren g.parenContent with
  | .unit => return .tuple [] false
  | .lifetimes t => return .paren t
  | .maybe b => return .traitObject false (b :: (← g.plusBounds)) false
  | .tuple es trailing => return .tuple es trailing
  | .single t =>
    match asFirstBound t with
    | some b =>
      if allowPlus && (← test (peekOp "+")) then
        return .traitObject false (b :: (← g.plusBounds)) false
      else return .paren t
    | none => return .paren t

/-- Bounds after a path that turned out to be a bare trait object. -/
def bareBounds : Nat → Reader (List Bound × Bool)
  | 0 => return ([], false)
  | fuel + 1 => do
    if !(← test (peekOp "+")) then return ([], false)
    let _ ← op "+"
    if !(← test (beginsBound false)) then return ([], true)
    let b ← g.bound false false
    let (bs, trailing) ← bareBounds fuel
    return (b :: bs, trailing)

def pathType (allowPlus : Bool) (binder : Option Binder) : Reader Ty := do
  match ← g.qualifiedPath false with
  | .inr (self, n, p) => return .projection self n p
  | .inl p =>
    let ts ← rest
    if peekOp "!" ts && !peekOp "!=" ts && p.isPlain then
      let _ ← op "!"
      let (d, inner) ← rawGroup
      return .invocation p (.group d (Node.ofTrees inner))
    if binder.isSome || (allowPlus && peekOp "+" ts) then
      let (bs, trailing) ←
        if allowPlus then g.bareBounds ((← rest).length + 1) else pure ([], false)
      return .traitObject false (.trait false false binder p :: bs) trailing
    return .path p

def binderFollowers : List String :=
  ["identifier", "`fn`", "`unsafe`", "`extern`", "`super`", "`self`", "`Self`", "`crate`"]

def typeBeginnings : List String :=
  ["`for`", "parentheses", "`fn`", "`unsafe`", "`extern`", "identifier", "`::`", "`<`", "`dyn`",
    "square brackets", "`*`", "`&`", "`!`", "`impl`", "`_`", "lifetime"]

/-- A type; `allowPlus` allows several bounds. -/
def typeWith (allowPlus : Bool) : Reader Ty := do
  let start ← rest
  let binder ← g.binderHere?
  let ts ← rest
  let pos := (← get).pos
  let isFn := ["fn", "unsafe", "extern"].any (peekWord · ts)
  let isRoot := ["super", "self", "Self", "crate"].any (peekWord · ts)
  if binder.isSome && !(peekName ts || isFn || isRoot) then failExpected binderFollowers
  if peekGroup .paren ts then g.parenType allowPlus
  else if isFn then g.fnPointer binder
  else if peekName ts || isRoot || peekOp "::" ts || peekOp "<" ts then
    g.pathType allowPlus binder
  else if peekWord "dyn" ts then
    let _ ← word "dyn"
    let star := (← op? "*").isSome
    let (bs, trailing) ← g.objectBounds pos allowPlus
    if star then return .verbatim (← takenSince start)
    else return .traitObject true bs trailing
  else if peekGroup .bracket ts then
    within .bracket do
      let elem ← g.ty true
      if ← test (peekOp ";") then
        let _ ← op ";"
        return .array elem (← g.expr true)
      else return .slice elem
  else if peekOp "*" ts then
    let _ ← op "*"
    let ts ← rest
    if peekWord "const" ts then
      let _ ← word "const"
      return .pointer false (← g.ty false)
    else if peekWord "mut" ts then
      let _ ← word "mut"
      return .pointer true (← g.ty false)
    else failExpected ["`const`", "`mut`"]
  else if peekOp "&" ts then
    let _ ← op "&"
    let l ← lifetime?
    let mutable := (← word? "mut").isSome
    return .reference l mutable (← g.ty false)
  else if peekOp "!" ts then
    let _ ← op "!"
    return .never
  else if peekWord "impl" ts then
    let _ ← word "impl"
    let (bs, trailing) ← g.bounds allowPlus true true ((← rest).length + 1)
    if bs.any fun b => b matches .trait .. || b matches .verbatim _ then
      return .implTrait bs trailing
    else throw ⟨pos, .rule "at least one trait must be specified" false⟩
  else if peekWord "_" ts then
    let _ ← word "_"
    return .infer
  else if peekLifetime ts then
    let (bs, trailing) ← g.objectBounds pos true
    return .traitObject false bs trailing
  else failExpected typeBeginnings

/-! ## Where clauses -/

def endsPredicates (ts : List Tree) : Bool :=
  ts.isEmpty || peekGroup .brace ts || peekOp "," ts || peekOp ";" ts ||
    (peekOp ":" ts && !peekOp "::" ts) || peekOp "=" ts

def wherePredicate : Reader WherePredicate := do
  let ts ← rest
  if peekLifetime ts && peekOp ":" (ts.drop 1) then
    let name ← lifetime
    let _ ← op ":"
    let stop := fun ts => endsPredicates ts || peekOp ":" ts
    return .lifetime name (← lifetimesWhile stop ((← rest).length + 1)) false
  else
    let binder ← g.binderHere?
    let ty ← g.ty true
    let _ ← op ":"
    let (bs, trailing) ← g.boundsTo endsPredicates
    return .type binder ty bs trailing

def predicateList : Nat → Reader (List WherePredicate × Bool)
  | 0 => return ([], false)
  | fuel + 1 => do
    if ← test endsPredicates then return ([], true)
    let p ← g.wherePredicate
    if !(← test (peekOp ",")) then return ([p], false)
    let _ ← op ","
    let (ps, trailing) ← predicateList fuel
    return (p :: ps, trailing)

def whereClause : Reader (Option (List WherePredicate × Bool)) := do
  if !(← test (peekWord "where")) then return none
  let _ ← word "where"
  let (ps, trailing) ← g.predicateList ((← rest).length + 1)
  return some (ps, trailing && !ps.isEmpty)

/-! ## Visibility -/

def visibility : Reader Visibility := do
  if !(← test (peekWord "pub")) then return .inherited
  let _ ← word "pub"
  match ← rest with
  | .group .paren inner _ _ :: _ =>
    if ["crate", "self", "super"].any (peekWord · inner) then
      if inner.length = 1 then
        return .restricted false (.single (← within .paren anyWord))
      else return .pub
    else if peekWord "in" inner then
      let path ← within .paren do
        let _ ← word "in"
        plainPath
      return .restricted true path
    else return .pub
  | _ => return .pub

end Grammar

end WrapperGen.Source
