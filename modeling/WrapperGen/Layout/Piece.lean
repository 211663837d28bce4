/-!
# Pieces of text and their layout

A `Piece` is a text, a place where a line may be broken, or a box of pieces. `layout` breaks lines
so that they fit: a box that is too wide for the rest of its line breaks at all its breaks, or, if
it is inconsistent, at those behind which too much follows.
-/

namespace WrapperGen.Layout

/-- The width that lines are meant to have. -/
def margin : Int := 89

/-- The steps of indentation. -/
def step : Int := 4

/-- The space that a line has at least, however far it is indented. -/
def minSpace : Int := 60

/-- Wider than any line. -/
def endless : Nat := 0xffff

/-- A place where a line may end. -/
structure Break where
  /-- How much further the next line is indented than its box. -/
  offset : Int
  /-- The blanks in an unbroken line. -/
  blank : Nat
  /-- Text at the end of the broken line. -/
  ending : String
  /-- Text at the start of the next line. -/
  starting : String
  /-- Text in an unbroken line. -/
  unbroken : String
  /-- Whether the break disappears at the end of its box. -/
  ifNonempty : Bool
  never : Bool
deriving DecidableEq, Repr

inductive Piece
  | text (text : String)
  | brk (b : Break)
  | box (offset : Int) (consistent : Bool) (inner : List Piece)
  /-- Invisible, but too wide for any line. -/
  | strut
  /-- A phrase that has no layout. -/
  | unwritable (what : String)

/-! ## Widths -/

mutual
/-- The width of a piece in one line, in bytes. -/
def Piece.width : Piece → Nat
  | .text s => s.utf8ByteSize
  | .brk b => b.blank
  | .box _ _ ps => widthAll ps
  | .strut => endless
  | .unwritable _ => 0
def widthAll : List Piece → Nat
  | [] => 0
  | p :: ps => p.width + widthAll ps
end

/-- The width up to the first break, with `after` behind the last piece. -/
def lead (after : Nat) : List Piece → Nat
  | [] => after
  | .brk _ :: _ => 0
  | p :: ps => p.width + lead after ps

/-! ## Printing -/

/-- How the breaks of a box are treated. -/
inductive Frame
  | fits
  | broken (consistent : Bool)
deriving DecidableEq, Repr

/-- The text so far, latest first, with the space that its line still has. Blanks wait until a
text follows, so that no line ends in them. -/
structure Page where
  out : List String
  space : Int
  pending : Nat

namespace Page

def write (page : Page) (s : String) : Page :=
  let blanks := "".pushn ' ' page.pending
  ⟨s :: blanks :: page.out, page.space - s.utf8ByteSize, 0⟩

def startLine (page : Page) (indent : Int) : Page :=
  ⟨"\n" :: page.out, max (margin - indent) minSpace, indent.toNat⟩

/-- A text at the end of a line or at its start, if there is one. -/
def writeIfAny (page : Page) (s : String) : Page := if s.isEmpty then page else page.write s

/-- Prints a break behind which `size` bytes follow up to the next one. -/
def putBreak (page : Page) (frame : Frame) (indent : Int) (size : Nat) (b : Break) : Page :=
  let fits := b.never || match frame with
    | .fits => true
    | .broken consistent => !consistent && (size : Int) ≤ page.space
  if fits then
    ⟨b.unbroken :: page.out, page.space - b.blank - b.unbroken.utf8ByteSize,
      page.pending + b.blank⟩
  else
    ((page.writeIfAny b.ending).startLine (indent + b.offset)).writeIfAny b.starting

end Page

mutual
/-- Prints a piece behind which `after` bytes follow up to the next break. -/
def Piece.print (frame : Frame) (indent : Int) (after : Nat) (page : Page) : Piece → Page
  | .text s => page.write s
  | .brk b => page.putBreak frame indent (b.blank + after) b
  | .box offset consistent inner =>
    if (widthAll inner + after : Nat) > page.space then
      printAll (.broken consistent) (indent + offset) after page inner
    else printAll .fits indent after page inner
  | .strut => page
  | .unwritable _ => page
def printAll (frame : Frame) (indent : Int) (after : Nat) (page : Page) : List Piece → Page
  | [] => page
  | p :: ps => printAll frame indent after (p.print frame indent (lead after ps) page) ps
end

/-- The text of a page whose lines are broken. -/
def layout (pieces : List Piece) : String :=
  let page := Piece.print (.broken false) 0 0 ⟨[], margin, 0⟩ (.box 0 true pieces)
  String.join page.out.reverse

mutual
/-- The first phrase that has no layout. -/
def Piece.unwritable? : Piece → Option String
  | .unwritable what => some what
  | .box _ _ ps => anyUnwritable? ps
  | _ => none
def anyUnwritable? : List Piece → Option String
  | [] => none
  | p :: ps => p.unwritable? <|> anyUnwritable? ps
end

/-! ## Making pieces -/

def plainBreak (blank : Nat) : Break := ⟨0, blank, "", "", "", false, false⟩

def text (s : String) : List Piece := [.text s]
def zeroBreak : List Piece := [.brk (plainBreak 0)]
def space : List Piece := [.brk (plainBreak 1)]
def hardBreak : List Piece := [.brk (plainBreak endless)]
def neverBreak : List Piece := [.brk { plainBreak 0 with never := true }]
def hardBreakIfNonempty : List Piece := [.brk { plainBreak endless with ifNonempty := true }]
def spaceIfNonempty : List Piece := [.brk { plainBreak 1 with ifNonempty := true }]

/-- Gives what stands before a closing bracket one step less indentation: the last break. -/
def dedent : List Piece → List Piece
  | [] => []
  | [.brk b] => [.brk { b with offset := b.offset - step }]
  | p :: ps => p :: dedent ps

/-- A box. One that has only a break in it vanishes. -/
def box (offset : Int) (consistent : Bool) (inner : List Piece) : List Piece :=
  match inner.reverse with
  | [.brk _] => []
  | .brk b :: others =>
    if b.ifNonempty then [.box offset consistent others.reverse] else [.box offset consistent inner]
  | _ => [.box offset consistent inner]

/-- A box that breaks everywhere or nowhere. -/
def cbox (offset : Int) (inner : List Piece) : List Piece := box offset true inner

/-- A box that breaks where it must. -/
def ibox (offset : Int) (inner : List Piece) : List Piece := box offset false inner

/-- Items with commas between them; a line end behind the last gets one too. -/
def commas : List (List Piece) → List Piece
  | [] => []
  | [x] => x ++ [.brk { plainBreak 0 with ending := "," }]
  | x :: xs => x ++ text "," ++ space ++ commas xs

/-- Items between brackets that are written around this. -/
def commaBox (offset : Int) (items : List (List Piece)) : List Piece :=
  cbox offset (dedent (zeroBreak ++ commas items))

/-- Items with a text between them. -/
def between (sep : String) : List (List Piece) → List Piece
  | [] => []
  | [x] => x
  | x :: xs => x ++ text sep ++ between sep xs

end WrapperGen.Layout
