import WrapperGen.Source.Token
import WrapperGen.Text.Identifier
/-!
# From text to token trees

Every scanner below takes the characters from some place on and gives the characters after the
lexeme, or `none` when no such lexeme starts there. `lex` puts them together: it skips blanks and
comments, turns documentation comments into attributes and matches brackets. It fails at the first
place where no token starts, at a closing bracket without its partner, or at the last bracket that
is still open when the text ends.
-/

namespace WrapperGen.Source.Lexer

open Text

/-- The characters after `lead`, if the text starts with it. -/
def after? (lead : String) (cs : List Char) : Option (List Char) :=
  if lead.toList.isPrefixOf cs then some (cs.drop lead.length) else none

def startsWith (lead : String) (cs : List Char) : Bool := lead.toList.isPrefixOf cs

/-! ## Blanks and comments -/

/-- Blanks between tokens, the marks of writing direction among them. -/
def isBlank (c : Char) : Bool :=
  c == ' ' || ('\t' ≤ c && c ≤ '\r') || c == '\x85' || c == '\xa0' || c == '\u1680' ||
    ('\u2000' ≤ c && c ≤ '\u200a') || c == '\u200e' || c == '\u200f' || c == '\u2028' ||
    c == '\u2029' || c == '\u202f' || c == '\u205f' || c == '\u3000'

/-- The text of the line, and the rest from its end on. -/
def splitLine : List Char → List Char × List Char
  | [] => ([], [])
  | '\n' :: r => ([], '\n' :: r)
  | '\r' :: '\n' :: r => ([], '\n' :: r)
  | c :: r => let (a, b) := splitLine r; (c :: a, b)

/-- The rest after the end of a block comment that is `depth` levels deep. -/
def skipBlock : Nat → List Char → Option (List Char)
  | _, [] => none
  | _, [_] => none
  | d, '/' :: '*' :: r => skipBlock (d + 1) r
  | d, '*' :: '/' :: r => if d ≤ 1 then some r else skipBlock (d - 1) r
  | d, _ :: r => skipBlock d r

def blockComment? (cs : List Char) : Option (List Char) :=
  if startsWith "/*" cs then skipBlock 0 cs else none

/-- Skips blanks and the comments that document nothing. -/
def skipBlanks : Nat → List Char → List Char
  | 0, cs => cs
  | fuel + 1, cs =>
    if startsWith "//" cs && (!startsWith "///" cs || startsWith "////" cs) &&
        !startsWith "//!" cs then
      skipBlanks fuel (splitLine cs).2
    else if startsWith "/**/" cs then skipBlanks fuel (cs.drop 4)
    else if startsWith "/*" cs && (!startsWith "/**" cs || startsWith "/***" cs) &&
        !startsWith "/*!" cs then
      match blockComment? cs with
      | some r => skipBlanks fuel r
      | none => cs
    else
      match cs with
      | c :: r => if isBlank c then skipBlanks fuel r else cs
      | [] => []

/-! ## Words -/

def ident? : List Char → Option (List Char)
  | c :: r => if isIdentStart c then some (r.dropWhile isIdentContinue) else none
  | [] => none

/-- Names that have no raw form. -/
def noRawForm : List String := ["_", "super", "self", "Self", "crate"]

/-- The characters of `cs` before its end `rest`. -/
def consumed (cs rest : List Char) : List Char := cs.take (cs.length - rest.length)

def anyIdent? (cs : List Char) : Option (List Char) :=
  match after? "r#" cs with
  | none => ident? cs
  | some inner => do
    let rest ← ident? inner
    if noRawForm.contains (String.ofList (consumed inner rest)) then none else some rest

def literalLeads : List String :=
  ["r\"", "r#\"", "r##", "b\"", "b'", "br\"", "br#", "c\"", "cr\"", "cr#"]

/-- A word that is not the start of a literal. -/
def word? (cs : List Char) : Option (List Char) :=
  if literalLeads.any (startsWith · cs) then none else anyIdent? cs

/-! ## Text literals -/

def isHexDigit (c : Char) : Bool := (Text.digitValue? c).isSome

def literalSuffix (cs : List Char) : List Char := (ident? cs).getD cs

/-- The value and the rest of the escape `u{…}` after its letter and bracket. -/
def unicodeEscape (len value : Nat) : List Char → Option (Nat × List Char)
  | [] => none
  | c :: r =>
    match Text.digitValue? c with
    | some d => if len = 6 then none else unicodeEscape (len + 1) (value * 16 + d) r
    | none =>
      if c = '_' ∧ 0 < len then unicodeEscape len value r
      else if c = '\x7d' ∧ 0 < len then
        if value.isValidChar then some (value, r) else none
      else none

/-- What may stand in a quoted literal. -/
structure TextRules where
  /-- Only ASCII characters, any two hex digits after `\x`, and no `\u`. -/
  bytes : Bool
  /-- No character zero, neither written out nor escaped. -/
  noZero : Bool

namespace TextRules

def str : TextRules := ⟨false, false⟩
def byteStr : TextRules := ⟨true, false⟩
def cStr : TextRules := ⟨false, true⟩

end TextRules

/-- The rest after one escape, given the characters after the backslash. -/
def escape? (rules : TextRules) : List Char → Option (List Char)
  | 'x' :: a :: b :: r =>
    if !isHexDigit a || !isHexDigit b then none
    else if rules.noZero then if a = '0' ∧ b = '0' then none else some r
    else if rules.bytes || a ≤ '7' then some r else none
  | 'u' :: '\x7b' :: r =>
    if rules.bytes then none
    else
      match unicodeEscape 0 0 r with
      | some (v, r) => if rules.noZero && v == 0 then none else some r
      | none => none
  | '0' :: r => if rules.noZero then none else some r
  | c :: r => if ['n', 'r', 't', '\\', '\'', '"'].contains c then some r else none
  | [] => none

/-- The rest after the closing quote. `skipping` holds after a backslash at the end of a line. -/
def quoted (rules : TextRules) : Nat → Bool → List Char → Option (List Char)
  | 0, _, _ => none
  | _, _, [] => none
  | fuel + 1, skipping, '\r' :: r =>
    match r with
    | '\n' :: r => quoted rules fuel skipping r
    | _ => none
  | fuel + 1, skipping, c :: r =>
    if skipping && (c == ' ' || c == '\t' || c == '\n') then quoted rules fuel true r
    else if c = '"' then some (literalSuffix r)
    else if c = '\\' then
      match r with
      | '\n' :: r => quoted rules fuel true r
      | '\r' :: '\n' :: r => quoted rules fuel true r
      | _ => (escape? rules r).bind (quoted rules fuel false)
    else if (rules.bytes && 0x80 ≤ c.toNat) || (rules.noZero && c.toNat == 0) then none
    else quoted rules fuel false r

/-- The rest after the closing quote and `hashes` signs of a raw literal. -/
def rawQuoted (rules : TextRules) (hashes : Nat) : List Char → Option (List Char)
  | [] => none
  | '\r' :: '\n' :: r => rawQuoted rules hashes r
  | '\r' :: _ => none
  | c :: r =>
    if c = '"' ∧ (List.replicate hashes '#').isPrefixOf r then
      some (literalSuffix (r.drop hashes))
    else if (rules.bytes && 0x80 ≤ c.toNat) || (rules.noZero && c.toNat == 0) then none
    else rawQuoted rules hashes r

/-- A raw literal from its hash signs on. -/
def rawText? (rules : TextRules) (cs : List Char) : Option (List Char) :=
  let hashes := (cs.takeWhile (· == '#')).length
  match cs.drop hashes with
  | '"' :: r => if hashes ≤ 255 then rawQuoted rules hashes r else none
  | _ => none

def textLiteral? (lead : String) (rules : TextRules) (cs : List Char) : Option (List Char) :=
  match after? (lead ++ "\"") cs with
  | some r => quoted rules (r.length + 1) false r
  | none => (after? (lead ++ "r") cs).bind (rawText? rules)

/-- One character or escape, then the closing apostrophe. -/
def charLiteral? (lead : String) (rules : TextRules) (cs : List Char) : Option (List Char) := do
  let inner ← after? lead cs
  let rest ←
    match inner with
    | '\\' :: r => escape? rules r
    | c :: r => if rules.bytes && 0x80 ≤ c.toNat then none else some r
    | [] => none
  match rest with
  | '\'' :: r => some (literalSuffix r)
  | _ => none

/-! ## Numbers -/

/-- The number must not run into a further identifier character. -/
def endNumber (cs : List Char) : Option (List Char) :=
  match cs with
  | c :: _ =>
    if isIdentStart c then ident? cs
    else if isIdentContinue c then none else some cs
  | [] => some []

/-- Digits after the exponent letter: the rest, and whether there was a digit. A second sign
rejects the exponent. -/
def exponent : Bool → Bool → List Char → Option (List Char × Bool)
  | _, digits, [] => some ([], digits)
  | signed, digits, c :: r =>
    if c = '+' ∨ c = '-' then
      if digits then some (c :: r, true) else if signed then none else exponent true digits r
    else if c.isDigit then exponent signed true r
    else if c = '_' then exponent signed digits r
    else some (c :: r, digits)

/-- Digits with a point or an exponent, after the first digit. -/
def floatTail : Bool → List Char → Option (List Char)
  | dot, [] => if dot then some [] else none
  | dot, c :: r =>
    if c.isDigit || c == '_' then floatTail dot r
    else if c = '.' ∧ !dot then
      match r with
      | d :: _ => if d == '.' || isIdentStart d then none else floatTail true r
      | [] => some []
    else if c = 'e' ∨ c = 'E' then
      match exponent false false r with
      | some (rest, true) => some rest
      | _ => if dot then some (c :: r) else none
    else if dot then some (c :: r) else none

def float? : List Char → Option (List Char)
  | c :: r => if c.isDigit then (floatTail false r).bind endNumber else none
  | [] => none

def digitsIn (base : Nat) : Bool → List Char → Option (List Char)
  | empty, [] => if empty then none else some []
  | empty, c :: r =>
    if (Text.digitIn? base c).isSome then digitsIn base false r
    else if c.isDigit then none
    else if c = '_' then if empty && base == 10 then none else digitsIn base empty r
    else if empty then none else some (c :: r)

def int? (cs : List Char) : Option (List Char) :=
  let digits :=
    if startsWith "0x" cs then digitsIn 16 true (cs.drop 2)
    else if startsWith "0o" cs then digitsIn 8 true (cs.drop 2)
    else if startsWith "0b" cs then digitsIn 2 true (cs.drop 2)
    else digitsIn 10 true cs
  digits.bind endNumber

def literal? (cs : List Char) : Option (List Char) :=
  textLiteral? "" .str cs <|> textLiteral? "b" .byteStr cs <|> textLiteral? "c" .cStr cs <|>
    charLiteral? "b'" .byteStr cs <|> charLiteral? "'" .str cs <|> float? cs <|> int? cs

/-! ## Punctuation -/

def isPunct (c : Char) : Bool := "~!@#$%^&*-=+|;:,<.>/?'".toList.contains c

/-- Whether a punctuation character starts here; the slash of a comment is none. -/
def atPunct (cs : List Char) : Bool :=
  !startsWith "//" cs && !startsWith "/*" cs && (cs.head?.any isPunct)

/-- A lifetime, which no apostrophe may follow. -/
def lifetime? : List Char → Option (List Char)
  | '\'' :: r => do
    let rest ← anyIdent? r
    match rest with
    | '\'' :: _ => none
    | '#' :: _ => if startsWith "r#" r then some rest else none
    | _ => some rest
  | _ => none

/-- The token at the start of the text, and the text after it. -/
def leaf? (cs : List Char) : Option (Token × List Char) :=
  match literal? cs with
  | some r => some (.literal (String.ofList (consumed cs r)), r)
  | none =>
    match lifetime? cs with
    | some r => some (.lifetime (String.ofList (consumed cs r)), r)
    | none =>
      match cs with
      | c :: r =>
        if c != '\'' && atPunct cs then some (.punct (String.singleton c) (atPunct r), r)
        else (word? cs).map fun r => (.ident (String.ofList (consumed cs r)), r)
      | [] => none

/-! ## Documentation comments -/

/-- The text as a quoted literal, as in the attribute of a documentation comment. -/
def quoteDoc (cs : List Char) : String :=
  "\"" ++ String.join (cs.map fun c =>
    if c = '"' then "\\\"" else if c = '\\' then "\\\\" else if c = '\n' then "\\n"
    else if c = '\r' then "\\r" else if c = '\t' then "\\t" else String.singleton c) ++ "\""

/-- A carriage return stands only before a line feed. -/
def crOk : List Char → Bool
  | [] => true
  | '\r' :: '\n' :: r => crOk r
  | '\r' :: _ => false
  | _ :: r => crOk r

/-- The text of a documentation comment, whether it documents what encloses it, and the rest. -/
def docComment? (cs : List Char) : Option (List Char × Bool × List Char) :=
  let block := fun inner => (blockComment? cs).map fun r =>
    ((consumed cs r).drop 3 |>.dropLast.dropLast, inner, r)
  let found :=
    if startsWith "//!" cs then
      let (text, r) := splitLine (cs.drop 3); some (text, true, r)
    else if startsWith "/*!" cs then block true
    else if startsWith "///" cs && !startsWith "////" cs then
      let (text, r) := splitLine (cs.drop 3); some (text, false, r)
    else if startsWith "/**" cs && !startsWith "/***" cs then block false
    else none
  found.filter fun f => crOk f.1

/-- A documentation comment as the attribute it stands for. -/
def docTrees (text : List Char) (inner : Bool) (pos closed : Pos) : List Tree :=
  let leaf := fun t => Tree.leaf t pos
  let body := [leaf (.ident "doc"), leaf (.op "="), leaf (.literal (quoteDoc text))]
  leaf (.op "#") :: (if inner then [leaf (.op "!")] else []) ++ [.group .bracket body pos closed]

/-! ## Token trees -/

/-- An open bracket: its place, its kind, and the trees before it, last first. -/
structure Frame where
  pos : Pos
  delim : Delim
  before : List Tree

/-- The trees of the text, or the place where it stops being a sequence of tokens. `done` holds
the trees of the innermost open bracket, last first. -/
def lexFrom : Nat → List Frame → List Tree → Pos → List Char → Except Pos (List Tree)
  | 0, _, _, pos, _ => .error pos
  | fuel + 1, stack, done, pos, cs =>
    let rest := skipBlanks (cs.length + 1) cs
    let pos := pos.advance (consumed cs rest)
    match docComment? rest with
    | some (text, inner, after) =>
      let lexeme := consumed rest after
      let trees := docTrees text inner pos (pos.advance lexeme.dropLast)
      lexFrom fuel stack (trees.reverse ++ done) (pos.advance lexeme) after
    | none =>
      match rest with
      | [] =>
        match stack with
        | [] => .ok done.reverse
        | f :: _ => .error f.pos
      | c :: r =>
        match Delim.ofOpening? c with
        | some d => lexFrom fuel (⟨pos, d, done⟩ :: stack) [] (pos.next c) r
        | none =>
          match Delim.ofClosing? c with
          | some d =>
            match stack with
            | [] => .error pos
            | f :: stack =>
              if f.delim = d then
                let tree := .group d done.reverse f.pos pos
                lexFrom fuel stack (tree :: f.before) (pos.next c) r
              else .error pos
          | none =>
            match leaf? rest with
            | some (t, after) =>
              lexFrom fuel stack (.leaf t pos :: done) (pos.advance (consumed rest after)) after
            | none => .error pos

def dropMark : List Char → List Char
  | '\ufeff' :: r => r
  | cs => cs

/-- The token trees of a text. A byte order mark at its start is skipped. -/
def lex (text : String) : Except Pos (List Tree) :=
  let cs := dropMark text.toList
  lexFrom (cs.length + 1) [] [] .start cs

end WrapperGen.Source.Lexer
