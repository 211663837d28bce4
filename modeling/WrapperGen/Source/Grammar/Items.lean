import WrapperGen.Source.Grammar.Expressions
/-!
# Reading items
-/

namespace WrapperGen.Source.Grammar

open Reader

variable (g : Grammar)

/-- The words that may begin a path without arguments. -/
def beginsPath (ts : List Tree) : Bool :=
  peekName ts || peekWord "self" ts || peekWord "super" ts || peekWord "crate" ts ||
    peekOp "::" ts

def pathBeginnings : List String := ["identifier", "`self`", "`super`", "`crate`", "`::`"]

/-! ## Functions -/

/-- Whether the qualifiers of a function and `fn` itself come next. -/
def atSignature (allowSafe : Bool) (ts : List Tree) : Bool :=
  let optional := fun w ts => if peekWord w ts then ts.drop 1 else ts
  let ts := optional "async" (optional "const" ts)
  let ts := if allowSafe && peekWord "safe" ts then ts.drop 1 else optional "unsafe" ts
  let ts :=
    if peekWord "extern" ts then
      let ts := ts.drop 1
      if peekTextLit ts then ts.drop 1 else ts
    else ts
  peekWord "fn" ts

def receiver : Reader Receiver := do
  let reference ←
    if ← test (peekOp "&") then
      let _ ← op "&"
      some <$> lifetime?
    else pure none
  let mutable := (← word? "mut").isSome
  let _ ← word "self"
  let typed ← if reference.isNone then test (peekOp ":") else pure false
  if typed then
    let _ ← op ":"
    return ⟨reference, mutable, some (← g.ty true)⟩
  else return ⟨reference, mutable, none⟩

/-- One parameter, or the pattern and dots that stand for further ones. -/
def fnInput (attrs : List Attribute) : Reader (FnInput ⊕ List Node) := do
  match ← ahead? g.receiver with
  | some (r, c) => set c; return .inl (.receiver attrs r)
  | none =>
    let ts ← rest
    if peekName ts && peekOp "<" (ts.drop 1) then
      return .inl (.typed attrs (.word "_") (← g.ty true))
    let p ← g.pattern
    let colon ← op ":"
    if ← test (peekOp "...") then
      let dots ← op "..."
      let comma ← if (← rest).isEmpty then pure [] else List.singleton <$> op ","
      return .inr (p :: colon :: dots :: comma)
    return .inl (.typed attrs p (← g.ty true))

/-- The place of the word `self` in a parameter. -/
def selfPos (ts : List Tree) : Pos :=
  ((ts.find? fun t => peekWord "self" [t]).map Tree.pos).getD .start

def fnInputs (first seen : Bool) : Nat → Reader (List FnInput × Bool × List Node)
  | 0 => return ([], false, [])
  | fuel + 1 => do
    if (← rest).isEmpty then return ([], !first, [])
    let attrs ← g.outerAttributes
    if ← test (peekOp "...") then
      let dots ← op "..."
      let comma ← if (← rest).isEmpty then pure [] else List.singleton <$> op ","
      return ([], !first, attrs.map Attribute.node ++ dots :: comma)
    let before ← rest
    match ← g.fnInput attrs with
    | .inr variadic => return ([], !first, attrs.map Attribute.node ++ variadic)
    | .inl a =>
      let isReceiver := a matches .receiver ..
      if isReceiver && seen then
        throw ⟨selfPos before, .rule "unexpected second method receiver" false⟩
      if isReceiver && !first then
        throw ⟨selfPos before, .rule "unexpected method receiver" false⟩
      if (← rest).isEmpty then return ([a], false, [])
      let _ ← op ","
      let (as, trailing, variadic) ← fnInputs false (seen || isReceiver) fuel
      return (a :: as, trailing, variadic)

/-- A signature; `safe` may stand for the absence of `unsafe` where that is allowed. -/
def signature (allowSafe : Bool) : Reader Signature := do
  let constant := (← word? "const").isSome
  let asynchronous := (← word? "async").isSome
  let unchecked := (← word? "unsafe").isSome
  if allowSafe && !unchecked && (← test (peekWord "safe")) then let _ ← word "safe"
  let abi ← abi
  let _ ← word "fn"
  let fnName ← name
  let generics ← g.generics
  let (inputs, trailing, variadic) ←
    within .paren (do g.fnInputs true false ((← rest).length + 1))
  let output ← g.output true
  let clause ← g.whereClause
  return ⟨constant, asynchronous, unchecked, abi, fnName, { generics with clause }, inputs,
    trailing, variadic, output⟩

/-- A body with its inner attributes. -/
def functionBody : Reader (List Attribute × List Node) :=
  within .brace do
    let attrs ← g.innerAttributes
    return (attrs, ← g.statements)

/-! ## Bounds and definitions of types -/

/-- Bounds after a colon, each `+` followed by another unless `stop` holds. -/
def boundsUntil (stop : List Tree → Bool) : Nat → Reader (List Bound × Bool)
  | 0 => return ([], false)
  | fuel + 1 => do
    if ← test stop then return ([], true)
    let b ← g.bound false true
    if ← test stop then return ([b], false)
    let _ ← op "+"
    let (bs, trailing) ← boundsUntil stop fuel
    return (b :: bs, trailing)

def boundList (stop : List Tree → Bool) : Reader (List Bound × Bool) := do
  let (bs, trailing) ← g.boundsUntil stop ((← rest).length + 1)
  return (bs, trailing && !bs.isEmpty)

/-- A type item: its name, its parameters, whether it has bounds, and its definition. -/
def typeItem (allowDefault clauseFirst : Bool) :
    Reader (String × Generics × Bool × Option Ty) := do
  let _ ← visibility
  if allowDefault then let _ ← word? "default"
  let _ ← word "type"
  let n ← name
  let generics ← g.generics
  let bounded := (← op? ":").isSome
  if bounded then
    let _ ← g.boundList fun ts => peekWord "where" ts || peekOp "=" ts || peekOp ";" ts
  let early ← if clauseFirst then g.whereClause else pure none
  let ty ← if (← op? "=").isSome then some <$> g.ty true else pure none
  let clause ← if clauseFirst then pure early else g.whereClause
  let _ ← op ";"
  return (n, { generics with clause }, bounded, ty)

/-- The rest of a constant after its name: whether it has neither parameters nor a `where`
clause. -/
def constantRest : Reader Bool := do
  let generics ← g.generics
  let _ ← op ":"
  let _ ← g.ty true
  if (← op? "=").isSome then let _ ← g.expr true
  let clause ← g.whereClause
  let _ ← op ";"
  return !generics.angle && clause.isNone

/-- The name of a constant, which may be `_`. -/
def constantName : Reader String := do
  let ts ← rest
  if peekName ts || peekWord "_" ts then anyWord
  else failExpected ["identifier", "`_`"]

/-- An invocation in the place of an item. -/
def itemInvocation (named : Bool) : Reader Unit := do
  let _ ← g.outerAttributes
  let _ ← plainPath
  let _ ← op "!"
  if named then
    if ← test (peekWord "try") then let _ ← anyWord
    else if ← test peekName then let _ ← name
  let (d, _) ← rawGroup
  if d != .brace then let _ ← op ";"

/-! ## Members -/

def traitMethod (attrs : List Attribute) : Reader Member := do
  let more ← g.outerAttributes
  let sig ← g.signature false
  let ts ← rest
  if peekGroup .brace ts then
    let (inner, body) ← g.functionBody
    return .method ⟨attrs ++ more ++ inner, .inherited, sig, some body⟩
  else if peekOp ";" ts then
    let _ ← op ";"
    return .method ⟨attrs ++ more, .inherited, sig, none⟩
  else failExpected ["curly braces", "`;`"]

def traitMember : Reader Member := do
  let attrs ← g.outerAttributes
  let vis ← visibility
  let inherited := vis matches .inherited
  let hasDefault := (← word? "default").isSome
  let ts ← rest
  let kept := fun m => if inherited && !hasDefault then m else Member.raw m
  if atSignature false ts then return kept (← g.traitMethod attrs)
  else if peekWord "const" ts then
    let one := ts.drop 1
    if peekName one || peekWord "_" one then
      let _ ← word "const"
      let n ← anyWord
      return if ← g.constantRest then kept (.const n) else .raw (.const n)
    else if ["async", "unsafe", "extern", "fn"].any (peekWord · one) then
      return kept (← g.traitMethod attrs)
    else
      let _ ← word "const"
      failExpected ["identifier", "`_`", "`async`", "`unsafe`", "`extern`", "`fn`"]
  else if peekWord "type" ts then
    let (n, generics, _, _) ← g.typeItem false false
    return kept (.type n generics)
  else if inherited && !hasDefault && beginsPath ts then
    g.itemInvocation false
    return .invocation
  else
    failExpected (["`fn`", "`const`", "`type`"] ++
      if inherited && !hasDefault then pathBeginnings else [])

def implMember : Reader Member := do
  let attrs ← g.outerAttributes
  let before ← get
  let vis ← visibility
  let inherited := vis matches .inherited
  let ts ← rest
  let hasDefault := peekWord "default" ts && !peekOp "!" (ts.drop 1)
  if hasDefault then let _ ← word "default"
  let ts ← rest
  if atSignature false ts then
    let sig ← g.signature false
    if (← op? ";").isSome then return .raw (.method ⟨attrs, vis, sig, none⟩)
    let (inner, body) ← g.functionBody
    return .method ⟨attrs ++ inner, vis, sig, some body⟩
  else if peekWord "const" ts then
    let _ ← word "const"
    let n ← constantName
    return if ← g.constantRest then .const n else .raw (.const n)
  else if peekWord "type" ts then
    set before
    let (n, generics, _, _) ← g.typeItem true false
    return .type n generics
  else if inherited && !hasDefault && beginsPath ts then
    g.itemInvocation false
    return .invocation
  else
    failExpected ((if hasDefault then [] else ["`fn`"]) ++
      (if hasDefault then ["`fn`", "`const`", "`type`"] else ["`default`", "`const`", "`type`"]) ++
      if inherited && !hasDefault then pathBeginnings else [])

def foreignMember : Reader Unit := do
  let _ ← g.outerAttributes
  let before ← get
  let vis ← visibility
  let inherited := vis matches .inherited
  let ts ← rest
  if atSignature true ts then
    let _ ← g.signature true
    if ← test (peekGroup .brace) then let _ ← g.functionBody
    else let _ ← op ";"
  else if peekWord "static" ts ||
      ((peekWord "unsafe" ts || peekWord "safe" ts) && peekWord "static" (ts.drop 1)) then
    if !peekWord "static" ts then skip 1
    let _ ← word "static"
    let _ ← word? "mut"
    let _ ← name
    let _ ← op ":"
    let _ ← g.ty true
    if (← op? "=").isSome then let _ ← g.expr true
    let _ ← op ";"
  else if peekWord "type" ts then
    set before
    let _ ← g.typeItem false true
  else if inherited && beginsPath ts then g.itemInvocation false
  else
    failExpected (["`fn`", "`static`", "`type`"] ++ if inherited then pathBeginnings else [])

/-! ## Fields -/

def namedField : Reader Unit := do
  let _ ← g.outerAttributes
  let _ ← visibility
  let unnamed ← test (peekWord "_")
  if unnamed then let _ ← anyWord else let _ ← name
  let _ ← op ":"
  let ts ← rest
  if unnamed && (peekWord "struct" ts || (peekWord "union" ts && peekGroup .brace (ts.drop 1))) then
    let _ ← anyWord
    let _ ← within .brace takeAll
  else let _ ← g.ty true

def namedFields : Reader Unit := do
  let _ ← within .brace (commaList g.namedField)

def tupleFields : Reader Unit := do
  let _ ← within .paren (commaList (do
    let _ ← g.outerAttributes
    let _ ← visibility
    let _ ← g.ty true))

def variant : Reader Unit := do
  let _ ← g.outerAttributes
  let _ ← visibility
  let _ ← name
  let ts ← rest
  if peekGroup .brace ts then g.namedFields
  else if peekGroup .paren ts then g.tupleFields
  if (← op? "=").isSome then let _ ← g.expr true

/-- The rest of a struct after its parameters. -/
def structBody : Reader Unit := do
  let clause ← g.whereClause
  let ts ← rest
  if clause.isNone && peekGroup .paren ts then
    g.tupleFields
    let after ← g.whereClause
    if ← test (peekOp ";") then let _ ← op ";"
    else failExpected (if after.isNone then ["`where`", "`;`"] else ["`;`"])
  else if peekGroup .brace ts then g.namedFields
  else if peekOp ";" ts then let _ ← op ";"
  else
    failExpected
      (if clause.isNone then ["`where`", "parentheses", "curly braces", "`;`"]
        else ["curly braces", "`;`"])

/-! ## Imports -/

def useBeginnings : List String :=
  ["identifier", "`self`", "`super`", "`crate`", "`try`", "`*`", "curly braces"]

/-- The name after `as`, which may be `_`. -/
def rename : Reader String := do
  let _ ← word "as"
  let ts ← rest
  if peekName ts then name
  else if peekWord "_" ts then anyWord
  else failRule "expected identifier or underscore"

/-- An import; nothing if part of it starts at the root in a place where only old code may. -/
def useTree : Nat → Bool → Reader (Option UseTree)
  | 0, _ => failExpected []
  | depth + 1, allowRoot => do
    let ts ← rest
    if peekName ts || ["self", "super", "crate", "try"].any (peekWord · ts) then
      let n ← anyWord
      let ts ← rest
      if peekOp "::" ts then
        let _ ← op "::"
        return (← useTree depth false).map (.path n)
      else if peekWord "as" ts then return some (.rename n (← rename))
      else return some (.name n)
    else if peekOp "*" ts then
      let _ ← op "*"
      return some .glob
    else if peekGroup .brace ts then
      let (trees, _) ← within .brace (commaList (do
        let atRoot ← if allowRoot then (·.isSome) <$> op? "::" else pure false
        let t ← useTree depth (allowRoot && !atRoot)
        return if atRoot then none else t))
      return if trees.all (·.isSome) then some (.group (trees.filterMap id)) else none
    else failExpected useBeginnings

/-! ## Traits and implementations -/

def traitRest (attrs : List Attribute) (vis : Visibility) (unchecked auto : Bool) (n : String)
    (line : Nat) (generics : Generics) : Reader Item := do
  let (supertraits, trailing) ←
    if (← op? ":").isSome then
      g.boundList fun ts => peekWord "where" ts || peekGroup .brace ts
    else pure ([], false)
  let clause ← g.whereClause
  let (inner, members) ← within .brace do
    let inner ← g.innerAttributes
    return (inner, ← manyWhile (!·.isEmpty) g.traitMember)
  return .trait ⟨attrs ++ inner, vis, unchecked, auto, n, line, { generics with clause },
    supertraits, trailing, members⟩

def traitItem (attrs : List Attribute) : Reader Item := do
  let vis ← visibility
  let unchecked := (← word? "unsafe").isSome
  let auto := (← word? "auto").isSome
  let _ ← word "trait"
  let line := (← get).pos.line
  let n ← name
  let generics ← g.generics
  g.traitRest attrs vis unchecked auto n line generics

/-- A trait, or another name for a list of bounds. -/
def traitOrAlias (attrs : List Attribute) : Reader Item := do
  let vis ← visibility
  let _ ← word "trait"
  let line := (← get).pos.line
  let n ← name
  let generics ← g.generics
  let ts ← rest
  if peekGroup .brace ts || peekOp ":" ts || peekWord "where" ts then
    g.traitRest attrs vis false false n line generics
  else if peekOp "=" ts then
    let _ ← op "="
    let _ ← g.boundList fun ts => peekWord "where" ts || peekOp ";" ts
    let _ ← g.whereClause
    let _ ← op ";"
    return .declaration .traitAlias n
  else failExpected ["curly braces", "`:`", "`where`", "`=`"]

def implItem (attrs : List Attribute) : Reader Item := do
  let vis ← visibility
  let _ ← word? "default"
  let _ ← word? "unsafe"
  let _ ← word "impl"
  let generics ← if opensGenerics (← rest) then g.generics else pure .none
  let ts ← rest
  let isConst := peekWord "const" ts || (peekOp "?" ts && peekWord "const" (ts.drop 1))
  if isConst then
    let _ ← op? "?"
    let _ ← word "const"
  let ts ← rest
  let pos := (← get).pos
  let negative := peekOp "!" ts && !peekGroup .brace (ts.drop 1)
  if negative then let _ ← op "!"
  let first ← g.ty true
  let isFor ← test (peekWord "for")
  let self ←
    if isFor then
      let _ ← word "for"
      g.ty true
    else if negative then throw ⟨pos, .rule "inherent impls cannot be negative" false⟩
    else pure first
  let clause ← g.whereClause
  let (inner, members) ← within .brace do
    let inner ← g.innerAttributes
    return (inner, ← manyWhile (!·.isEmpty) g.implMember)
  let trait? : Option Path :=
    match isFor, first with
    | true, .path p => some p
    | _, _ => none
  let kept := (vis matches .inherited) && !isConst && !(isFor && trait?.isNone)
  if kept then
    return .impl ⟨attrs ++ inner, { generics with clause }, trait?, self, members⟩
  else return .other

/-! ## Items -/

def moduleItem : Reader Item := do
  let _ ← visibility
  let _ ← word? "unsafe"
  let _ ← word "mod"
  let n ← if ← test (peekWord "try") then anyWord else name
  let ts ← rest
  if peekOp ";" ts then
    let _ ← op ";"
    return .module n none
  else if peekGroup .brace ts then
    let items ← within .brace do
      let _ ← g.innerAttributes
      manyWhile (!·.isEmpty) g.item
    return .module n (some items)
  else failExpected ["`;`", "curly braces"]

def foreignModule : Reader Item := do
  let _ ← word? "unsafe"
  let _ ← word "extern"
  if ← test peekTextLit then let _ ← literal
  let _ ← within .brace do
    let _ ← g.innerAttributes
    let _ ← manyWhile (!·.isEmpty) g.foreignMember
  return .other

/-- An item that begins with `extern` and declares no function. -/
def externItem : Reader Item := do
  let _ ← visibility
  let ts ← rest
  let one := ts.drop 1
  if peekWord "crate" one then
    let _ ← word "extern"
    let _ ← word "crate"
    if ← test (peekWord "self") then let _ ← anyWord else let _ ← name
    if ← test (peekWord "as") then
      let _ ← word "as"
      if ← test peekName then let _ ← name else let _ ← word "_"
    let _ ← op ";"
    return .other
  else if peekGroup .brace one then g.foreignModule
  else if peekTextLit one then
    if peekGroup .brace (ts.drop 2) then g.foreignModule
    else
      skip 2
      failExpected ["curly braces"]
  else
    skip 1
    failExpected ["`crate`", "curly braces", "string literal"]

def staticItem : Reader Item := do
  let _ ← visibility
  let _ ← word "static"
  let _ ← word? "mut"
  let _ ← name
  if (← op? "=").isSome then let _ ← g.expr true
  else
    let _ ← op ":"
    let _ ← g.ty true
    if !(← test (peekOp ";")) then
      let _ ← op "="
      let _ ← g.expr true
  let _ ← op ";"
  return .other

/-- A macro definition of the new kind: its parameters and its body are tokens. -/
def definitionItem : Reader Item := do
  let _ ← visibility
  let _ ← word "macro"
  let _ ← name
  let hasParams ← test (peekGroup .paren)
  if hasParams then let _ ← within .paren takeAll
  if ← test (peekGroup .brace) then
    let _ ← within .brace takeAll
    return .other
  else failExpected (if hasParams then ["curly braces"] else ["parentheses", "curly braces"])

def itemBeginnings : List String :=
  ["`fn`", "`extern`", "`use`", "`static`", "`const`", "`unsafe`", "`mod`", "`type`", "`struct`",
    "`enum`", "`union`", "`trait`", "`auto`", "`impl`", "`default`", "`macro`"]

def itemWith : Reader Item := do
  let attrs ← g.outerAttributes
  let start ← get
  let vis ← visibility
  let after ← get
  let inherited := vis matches .inherited
  let ts := after.rest
  let one := ts.drop 1
  let from' {α : Type} (p : Reader α) : Reader α := do set start; p
  if atSignature false ts then
    let _ ← g.signature false
    if ← test (peekOp ";") then let _ ← op ";"
    else let _ ← g.functionBody
    return .other
  else if peekWord "extern" ts then from' g.externItem
  else if peekWord "use" ts then
    let _ ← word "use"
    let leading := (← op? "::").isSome
    let tree ← useTree (Tree.sizes after.rest + 1) (!leading)
    let _ ← op ";"
    return (tree.map Item.use).getD .other
  else if peekWord "static" ts then from' g.staticItem
  else if peekWord "const" ts then
    let _ ← word "const"
    let _ ← constantName
    let _ ← g.constantRest
    return .other
  else if peekWord "unsafe" ts then
    if peekWord "trait" one || (peekWord "auto" one && peekWord "trait" (ts.drop 2)) then
      from' (g.traitItem attrs)
    else if peekWord "impl" one then from' (g.implItem attrs)
    else if peekWord "extern" one then g.foreignModule
    else if peekWord "mod" one then from' g.moduleItem
    else
      skip 1
      failExpected ["`trait`", "`auto`", "`impl`", "`extern`", "`mod`"]
  else if peekWord "mod" ts then from' g.moduleItem
  else if peekWord "type" ts then
    let (n, _, bounded, ty) ← from' (g.typeItem false true)
    return if ty.isSome && !bounded then .declaration .typeAlias n else .other
  else if peekWord "struct" ts then
    let _ ← word "struct"
    let n ← name
    let _ ← g.generics
    g.structBody
    return .declaration .struct n
  else if peekWord "enum" ts then
    let _ ← word "enum"
    let n ← name
    let _ ← g.generics
    let _ ← g.whereClause
    let _ ← within .brace (commaList g.variant)
    return .declaration .enum n
  else if peekWord "union" ts && peekName one then
    let _ ← word "union"
    let n ← name
    let _ ← g.generics
    let _ ← g.whereClause
    g.namedFields
    return .declaration .union n
  else if peekWord "trait" ts then from' (g.traitOrAlias attrs)
  else if peekWord "auto" ts && peekWord "trait" one then from' (g.traitItem attrs)
  else if peekWord "impl" ts || (peekWord "default" ts && !peekOp "!" one) then
    from' (g.implItem attrs)
  else if peekWord "macro" ts then from' definitionItem
  else if inherited && beginsPath ts then
    g.itemInvocation true
    return .other
  else failExpected (itemBeginnings ++ if inherited then pathBeginnings else [])

end WrapperGen.Source.Grammar
