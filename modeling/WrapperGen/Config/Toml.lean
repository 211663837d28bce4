import WrapperGen.Config.Data
import WrapperGen.Text.Digit
/-!
# Settings files

Reads the text of a settings file. Numbers, truth values and dates are only checked; tables, lists
and texts are kept. Every reader takes characters from the front and gives back the rest.
-/

namespace WrapperGen.Toml

/-! ## Tables under construction -/

inductive TableKind
  /-- Opened by a header of its own. -/
  | explicit
  /-- Only named on the way to another table. -/
  | implicit
  /-- Made by a dotted key. -/
  | dotted
deriving DecidableEq, Repr

inductive Entry
  | value (value : Data)
  | table (kind : TableKind) (entries : List (String × Entry))
  /-- The tables of repeated double-bracket headers. -/
  | tables (items : List (List (String × Entry)))

abbrev Entries := List (String × Entry)

def replace (entries : Entries) (key : String) (e : Entry) : Entries :=
  entries.map fun (k, old) => if k == key then (k, e) else (k, old)

/-- Changes the table that the keys lead to; tables on the way are made if need be. A dotted key
cannot lead into a table with a header. -/
def descend (dotted : Bool) : List String → (Entries → Option Entries) → Entries → Option Entries
  | [], f, entries => f entries
  | k :: ks, f, entries =>
    match entries.lookup k with
    | none => do
      let inner ← descend dotted ks f []
      return entries ++ [(k, .table (if dotted then .dotted else .implicit) inner)]
    | some (.table kind inner) =>
      if dotted && kind = .explicit then none
      else do return replace entries k (.table kind (← descend dotted ks f inner))
    | some (.tables items) => do
      let inner ← descend dotted ks f (items.getLast?.getD [])
      return replace entries k (.tables (items.dropLast ++ [inner]))
    | some (.value _) => none

/-- Adds a key that must be new. -/
def insertNew (key : String) (e : Entry) (entries : Entries) : Option Entries :=
  if (entries.lookup key).isSome then none else some (entries ++ [(key, e)])

/-- Opens the table of a header. -/
def openTable (key : String) (entries : Entries) : Option Entries :=
  match entries.lookup key with
  | none => some (entries ++ [(key, .table .explicit [])])
  | some (.table .implicit inner) => some (replace entries key (.table .explicit inner))
  | some _ => none

/-- Opens another table of a double-bracket header. -/
def openNext (key : String) (entries : Entries) : Option Entries :=
  match entries.lookup key with
  | none => some (entries ++ [(key, .tables [[]])])
  | some (.tables items) => some (replace entries key (.tables (items ++ [[]])))
  | some _ => none

mutual
def Entry.data : Entry → Data
  | .value d => d
  | .table _ entries => .table (entriesData entries)
  | .tables items => .list (itemsData items)
def entriesData : List (String × Entry) → List (String × Data)
  | [] => []
  | (k, e) :: r => (k, e.data) :: entriesData r
def itemsData : List (List (String × Entry)) → List Data
  | [] => []
  | t :: r => .table (entriesData t) :: itemsData r
end

/-! ## Blanks and comments -/

def isBlank (c : Char) : Bool := c == ' ' || c == '\t'

def skipBlanks (cs : List Char) : List Char := cs.dropWhile isBlank

/-- Whether a comment or a text may contain the character. -/
def isPlain (c : Char) : Bool := c == '\t' || (' ' ≤ c && c != '\x7f')

def newline? : List Char → Option (List Char)
  | '\n' :: r => some r
  | '\r' :: '\n' :: r => some r
  | _ => none

def skipComment (cs : List Char) : List Char :=
  match cs with
  | '#' :: r => r.dropWhile isPlain
  | _ => cs

/-- The end of a line, or of the text, perhaps with a comment before it. -/
def lineEnd? (cs : List Char) : Option (List Char) :=
  match skipComment (skipBlanks cs) with
  | [] => some []
  | r => newline? r

/-- Blanks, comments and line ends. -/
def skipLines : Nat → List Char → List Char
  | 0, cs => cs
  | fuel + 1, cs =>
    let r := skipComment (skipBlanks cs)
    match newline? r with
    | some r => skipLines fuel r
    | none => r

/-! ## Texts -/

/-- The character with the code of exactly `count` digits. -/
def codePoint? (count : Nat) (cs : List Char) : Option (Char × List Char) := do
  let n ← Text.number? 16 (cs.take count)
  if count ≤ cs.length && n.isValidChar then return (Char.ofNat n, cs.drop count)
  none

/-- What follows a backslash. -/
def escape? : List Char → Option (Char × List Char)
  | 'b' :: r => some ('\x08', r)
  | 't' :: r => some ('\t', r)
  | 'n' :: r => some ('\n', r)
  | 'f' :: r => some ('\x0c', r)
  | 'r' :: r => some ('\r', r)
  | 'e' :: r => some ('\x1b', r)
  | '"' :: r => some ('"', r)
  | '\\' :: r => some ('\\', r)
  | 'x' :: r => codePoint? 2 r
  | 'u' :: r => codePoint? 4 r
  | 'U' :: r => codePoint? 8 r
  | _ => none

/-- The rest of a text in double quotes. -/
def basic : Nat → List Char → List Char → Option (List Char × List Char)
  | 0, _, _ => none
  | _, acc, '"' :: r => some (acc.reverse, r)
  | fuel + 1, acc, '\\' :: r => do
    let (c, r) ← escape? r
    basic fuel (c :: acc) r
  | fuel + 1, acc, c :: r => if isPlain c then basic fuel (c :: acc) r else none
  | _, _, [] => none

/-- The rest of a text in single quotes. -/
def literal : List Char → List Char → Option (List Char × List Char)
  | acc, '\'' :: r => some (acc.reverse, r)
  | acc, c :: r => if isPlain c then literal (c :: acc) r else none
  | _, [] => none

/-- Three quotes end a text of several lines; up to two more belong to it. -/
def closing? (quote : Char) (cs : List Char) : Option (List Char × List Char) :=
  let run := (cs.takeWhile (· == quote)).length
  if run < 3 then none
  else
    let inner := min (run - 3) 2
    some (List.replicate inner quote, cs.drop (inner + 3))

/-- Blanks and line ends behind a backslash at the end of a line. -/
def skipSpace : List Char → List Char
  | '\r' :: '\n' :: r => skipSpace r
  | c :: r => if isBlank c || c == '\n' then skipSpace r else c :: r
  | [] => []

/-- The rest of a text in three quotes. -/
def multiline (quote : Char) : Nat → List Char → List Char → Option (List Char × List Char)
  | 0, _, _ => none
  | fuel + 1, acc, cs =>
    match closing? quote cs with
    | some (inner, r) => some (acc.reverse ++ inner, r)
    | none =>
      match cs with
      | [] => none
      | '\\' :: r =>
        if quote == '\'' then multiline quote fuel ('\\' :: acc) r
        else if (newline? (skipBlanks r)).isSome then multiline quote fuel acc (skipSpace r)
        else do
          let (c, r) ← escape? r
          multiline quote fuel (c :: acc) r
      | c :: r =>
        match newline? cs with
        | some r => multiline quote fuel ('\n' :: acc) r
        | none => if isPlain c then multiline quote fuel (c :: acc) r else none

def afterNewline (cs : List Char) : List Char := (newline? cs).getD cs

/-- A text with its quotes. -/
def text? (fuel : Nat) : List Char → Option (String × List Char)
  | '"' :: '"' :: '"' :: r => finish (multiline '"' fuel [] (afterNewline r))
  | '\'' :: '\'' :: '\'' :: r => finish (multiline '\'' fuel [] (afterNewline r))
  | '"' :: r => finish (basic fuel [] r)
  | '\'' :: r => finish (literal [] r)
  | _ => none
where
  finish (r : Option (List Char × List Char)) : Option (String × List Char) :=
    r.map fun (cs, r) => (String.ofList cs, r)

/-! ## Keys -/

def isBare (c : Char) : Bool :=
  ('a' ≤ c && c ≤ 'z') || ('A' ≤ c && c ≤ 'Z') || c.isDigit || c == '_' || c == '-'

/-- One part of a key: a bare word or a text in one line. -/
def simpleKey (fuel : Nat) : List Char → Option (String × List Char)
  | '"' :: r => (basic fuel [] r).map fun (cs, r) => (String.ofList cs, r)
  | '\'' :: r => (literal [] r).map fun (cs, r) => (String.ofList cs, r)
  | cs =>
    match cs.takeWhile isBare with
    | [] => none
    | word => some (String.ofList word, cs.dropWhile isBare)

/-- The parts of a key with dots between them. -/
def key : Nat → List Char → Option (List String × List Char)
  | 0, _ => none
  | fuel + 1, cs => do
    let (part, r) ← simpleKey fuel (skipBlanks cs)
    match skipBlanks r with
    | '.' :: r =>
      let (parts, r) ← key fuel r
      return (part :: parts, r)
    | r => return ([part], r)

/-! ## Numbers, truth values and dates -/

/-- Digits of a base with single underscores between them. -/
def digitsOk (ok : Char → Bool) : List Char → Bool
  | [] => false
  | [c] => ok c
  | c :: '_' :: r => ok c && digitsOk ok r
  | c :: r => ok c && digitsOk ok r

def isBinary (c : Char) : Bool := c == '0' || c == '1'
def isOctal (c : Char) : Bool := '0' ≤ c && c ≤ '7'

def unsigned (cs : List Char) : List Char :=
  match cs with
  | '+' :: r => r
  | '-' :: r => r
  | _ => cs

/-- Decimal digits without a needless zero in front. -/
def decimalOk (cs : List Char) : Bool :=
  digitsOk Char.isDigit cs && !(cs.head? == some '0' && cs.length > 1)

def integerOk (cs : List Char) : Bool :=
  match cs with
  | '0' :: 'x' :: r => digitsOk (fun c => (Text.digitValue? c).isSome) r
  | '0' :: 'o' :: r => digitsOk isOctal r
  | '0' :: 'b' :: r => digitsOk isBinary r
  | _ => decimalOk (unsigned cs)

def exponentOk : List Char → Bool
  | [] => true
  | c :: r => (c == 'e' || c == 'E') && digitsOk Char.isDigit (unsigned r)

def floatOk (cs : List Char) : Bool :=
  let body := unsigned cs
  let isEnd := fun c => c == '.' || c == 'e' || c == 'E'
  body == "inf".toList || body == "nan".toList ||
    (decimalOk (body.takeWhile (!isEnd ·)) &&
      match body.dropWhile (!isEnd ·) with
      | '.' :: r =>
        digitsOk Char.isDigit (r.takeWhile (!isEnd ·)) && exponentOk (r.dropWhile (!isEnd ·))
      | [] => false
      | r => exponentOk r)

/-- The number of `count` digits and the rest. -/
def number? (count : Nat) (cs : List Char) : Option (Nat × List Char) :=
  if count ≤ cs.length then (Text.number? 10 (cs.take count)).map (·, cs.drop count) else none

def expect? (c : Char) : List Char → Option (List Char)
  | d :: r => if c == d then some r else none
  | [] => none

def isLeap (year : Nat) : Bool := (year % 4 == 0 && year % 100 != 0) || year % 400 == 0

def daysIn (year month : Nat) : Nat :=
  if month == 2 then (if isLeap year then 29 else 28)
  else if [4, 6, 9, 11].contains month then 30 else 31

def date? (cs : List Char) : Option (List Char) := do
  let (year, r) ← number? 4 cs
  let (month, r) ← number? 2 (← expect? '-' r)
  let (day, r) ← number? 2 (← expect? '-' r)
  if 1 ≤ month && month ≤ 12 && 1 ≤ day && day ≤ daysIn year month then return r
  none

/-- What is left after a time of day, which may end with its minutes. -/
def time? (cs : List Char) : Option (List Char) := do
  let (hour, r) ← number? 2 cs
  let (minute, r) ← number? 2 (← expect? ':' r)
  if 23 < hour || 59 < minute then none
  else
    match r with
    | ':' :: r =>
      let (second, r) ← number? 2 r
      if 60 < second then none
      else
        match r with
        | '.' :: r =>
          if (r.takeWhile Char.isDigit).isEmpty then none else return r.dropWhile Char.isDigit
        | r => return r
    | r => return r

def offsetOk : List Char → Bool
  | [] => true
  | ['Z'] | ['z'] => true
  | c :: r =>
    (c == '+' || c == '-') &&
      match number? 2 r with
      | some (hour, ':' :: r) =>
        match number? 2 r with
        | some (minute, []) => hour ≤ 24 && minute ≤ 59
        | _ => false
      | _ => false

def isDateOrTime (cs : List Char) : Bool :=
  match date? cs with
  | some [] => true
  | some (c :: r) =>
    (c == 'T' || c == 't' || c == ' ') && ((time? r).map offsetOk).getD false
  | none => time? cs == some []

def isScalarEnd (c : Char) : Bool :=
  isBlank c || c == ',' || c == ']' || c == '\x7d' || c == '#' || c == '\n' || c == '\r'

/-- A value that is no text, list or table. A blank may stand between a date and a time. -/
def scalar? (cs : List Char) : Option (List Char) :=
  let word := cs.takeWhile (!isScalarEnd ·)
  let rest := cs.dropWhile (!isScalarEnd ·)
  let (word, rest) :=
    match rest with
    | ' ' :: c :: r =>
      if date? word == some [] && c.isDigit then
        (word ++ ' ' :: (c :: r).takeWhile (!isScalarEnd ·), (c :: r).dropWhile (!isScalarEnd ·))
      else (word, rest)
    | _ => (word, rest)
  if word == "true".toList || word == "false".toList || integerOk word || floatOk word ||
      isDateOrTime word then some rest
  else none

/-! ## Values -/

mutual
def value : Nat → List Char → Option (Data × List Char)
  | 0, _ => none
  | fuel + 1, cs =>
    match cs with
    | '"' :: _ | '\'' :: _ => (text? (fuel + 1) cs).map fun (s, r) => (.text s, r)
    | '[' :: r => (elements fuel [] r).map fun (ds, r) => (.list ds, r)
    | '\x7b' :: r => (fields fuel [] r).map fun (es, r) => (.table (entriesData es), r)
    | _ => (scalar? cs).map fun r => (.other, r)
/-- The elements of a list up to its bracket. -/
def elements : Nat → List Data → List Char → Option (List Data × List Char)
  | 0, _, _ => none
  | fuel + 1, acc, cs =>
    match skipLines cs.length cs with
    | ']' :: r => some (acc.reverse, r)
    | r => do
      let (d, r) ← value fuel r
      match skipLines r.length r with
      | ',' :: r => elements fuel (d :: acc) r
      | ']' :: r => return ((d :: acc).reverse, r)
      | _ => none
/-- The fields of an inline table up to its brace. -/
def fields : Nat → Entries → List Char → Option (Entries × List Char)
  | 0, _, _ => none
  | fuel + 1, acc, cs =>
    match skipLines cs.length cs with
    | '\x7d' :: r => some (acc, r)
    | r => do
      let (acc, r) ← field fuel acc r
      match skipLines r.length r with
      | ',' :: r => fields fuel acc r
      | '\x7d' :: r => return (acc, r)
      | _ => none
/-- Adds a key with its value to a table. -/
def field : Nat → Entries → List Char → Option (Entries × List Char)
  | 0, _, _ => none
  | fuel + 1, acc, cs => do
    let (ks, r) ← key cs.length cs
    let (d, r) ← value fuel (skipBlanks (← expect? '=' (skipBlanks r)))
    let acc ← descend true ks.dropLast (insertNew (ks.getLast?.getD "") (.value d)) acc
    return (acc, r)
end

/-! ## Lines -/

/-- The file so far, and the keys of the table that the last header opened. -/
structure Document where
  entries : Entries
  current : List String

def header (doc : Document) (doubled : Bool) (cs : List Char) : Option (Document × List Char) := do
  let (ks, r) ← key cs.length cs
  let r ← expect? ']' r
  let r ← if doubled then expect? ']' r else some r
  let last := ks.getLast?.getD ""
  let entries ← descend false ks.dropLast (if doubled then openNext last else openTable last)
    doc.entries
  return (⟨entries, ks⟩, r)

/-- A header or a key with its value. -/
def expression (doc : Document) (cs : List Char) : Option (Document × List Char) :=
  match cs with
  | '[' :: '[' :: r => header doc true r
  | '[' :: r => header doc false r
  | _ => do
    let (ks, r) ← key cs.length cs
    let (d, r) ← value cs.length (skipBlanks (← expect? '=' (skipBlanks r)))
    let insert := insertNew (ks.getLast?.getD "") (.value d)
    let entries ← descend false doc.current (descend true ks.dropLast insert) doc.entries
    return ({ doc with entries := entries }, r)

def document : Nat → Document → List Char → Option Document
  | 0, _, _ => none
  | fuel + 1, doc, cs =>
    match skipLines cs.length cs with
    | [] => some doc
    | r => do
      let (doc, r) ← expression doc r
      document fuel doc (← lineEnd? r)

/-- The table of a settings file, if the text is one. -/
def parse (text : String) : Option Data := do
  let cs := match text.toList with
    | '\ufeff' :: r => r
    | cs => cs
  let doc ← document (cs.length + 1) ⟨[], []⟩ cs
  return .table (entriesData doc.entries)

end WrapperGen.Toml
