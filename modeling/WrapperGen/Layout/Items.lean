import WrapperGen.Layout.Phrases
import WrapperGen.Source.Item
import WrapperGen.Text.Quote
/-!
# Layout of traits and implementations
-/

namespace WrapperGen.Layout

open Source

/-! ## Attributes and visibility -/

def attributesPieces (as : List Attribute) : List Piece :=
  as.flatMap fun a => nodePieces .value a.node

def visibilityPieces : Visibility → List Piece
  | .inherited => []
  | .pub => text "pub "
  | .restricted _ p =>
    let bare := ["self", "super", "crate"].any p.isSingle
    text ("pub(" ++ (if bare then "" else "in ") ++ plainText p ++ ") ")

/-! ## Generics -/

def genericsPieces (g : Generics) : List Piece :=
  if g.params.isEmpty then []
  else
    let isLifetime := fun (p : GenericParam) => p matches .lifetime ..
    let sorted := g.params.filter isLifetime ++ g.params.filter (!isLifetime ·)
    text "<" ++ commaBox 0 (genericParamsPieces sorted) ++ text ">"

def predicatePieces : WherePredicate → List Piece
  | .lifetime n bs _ => text (n ++ ":") ++ ibox step (boundTail (bs.map text))
  | .type b t bs _ =>
    binderPieces b ++ tyPieces t ++ text ":" ++ ibox step (boundTail (boundsPieces bs))
where
  boundTail : List (List Piece) → List Piece
    | [] => []
    | b :: bs => text " " ++ b ++ bs.flatMap fun b => space ++ text "+ " ++ b

/-- The `where` clause, with what follows it if there is none. -/
def clausePieces (g : Generics) (semicolon : Bool) : List Piece :=
  match g.predicates with
  | [] => text (if semicolon then ";" else " ")
  | ps =>
    let lines := ps.zipIdx.flatMap fun (p, i) =>
      predicatePieces p ++
        if semicolon && i + 1 == ps.length then text ";" else text "," ++ hardBreak
    dedent hardBreak ++ text "where" ++ hardBreak ++ if semicolon then lines else dedent lines

/-! ## Functions -/

def receiverPieces (r : Receiver) : List Piece :=
  (match r.reference with
    | none => []
    | some none => text "&"
    | some (some l) => text ("&" ++ l ++ " ")) ++
  (if r.mutable then text "mut " else []) ++ text "self" ++
  match r.ty with
  | none => []
  | some t => text ": " ++ tyPieces t

def inputPieces : FnInput → List Piece
  | .receiver as r => attributesPieces as ++ receiverPieces r
  | .typed as p t => attributesPieces as ++ nodePieces .value p ++ text ": " ++ tyPieces t

def signaturePieces (s : Signature) : List Piece :=
  (if s.constant then text "const " else []) ++ (if s.asynchronous then text "async " else []) ++
    (if s.unchecked then text "unsafe " else []) ++
    (match s.abi with
      | none => []
      | some none => text "extern "
      | some (some name) => text ("extern " ++ name ++ " ")) ++
    text "fn " ++ text s.name ++ genericsPieces s.generics ++ text "(" ++ neverBreak ++
    commaBox 0 (s.inputs.map inputPieces) ++ text ")" ++ cbox (-step) (outputPieces s.output)

def methodPieces (m : Method) : List Piece :=
  attributesPieces m.attrs ++
    (match m.body with
      | none =>
        cbox step (signaturePieces m.signature ++ clausePieces m.signature.generics true)
      | some body =>
        cbox step (visibilityPieces m.vis ++ signaturePieces m.signature ++
          clausePieces m.signature.generics false ++ text "\x7b" ++
          dedent (hardBreakIfNonempty ++ linesOf body)) ++ text "\x7d") ++
    hardBreak

/-- A member; only methods are laid out. -/
def memberPieces : Member → List Piece
  | .method m => methodPieces m
  | _ => []

/-! ## Items -/

def membersPieces (ms : List Member) : List Piece :=
  text "\x7b" ++ dedent (hardBreakIfNonempty ++ ms.flatMap memberPieces)

def traitPieces (t : Trait) : List Piece :=
  attributesPieces t.attrs ++
    cbox step (visibilityPieces t.vis ++ (if t.unchecked then text "unsafe " else []) ++
      (if t.auto then text "auto " else []) ++ text "trait " ++ text t.name ++
      genericsPieces t.generics ++
      (if t.supertraits.isEmpty then []
        else text ": " ++ between " + " (boundsPieces t.supertraits)) ++
      clausePieces t.generics false ++ membersPieces t.members) ++
    text "\x7d" ++ hardBreak

def implementationPieces (i : Implementation) : List Piece :=
  attributesPieces i.attrs ++
    cbox step (
      ibox (-step) (cbox step (text "impl" ++ genericsPieces i.generics) ++ text " " ++
        (match i.trait with
          | none => []
          | some p => pathPieces .type p ++ space ++ text "for ") ++
        tyPieces i.self) ++
      clausePieces i.generics false ++ membersPieces i.members) ++
    text "\x7d" ++ hardBreak

end WrapperGen.Layout
