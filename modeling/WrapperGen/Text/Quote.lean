import WrapperGen.Text.Digit
import WrapperGen.Text.Printable
/-!
# Quoting

`quote` writes a text between double quotes so that every character of it can be seen, and
`unquote?` reads it back.
-/

namespace WrapperGen.Text

def hexDigits (n : Nat) : String := String.ofList (Nat.toDigits 16 n)

/-- A character inside double quotes. -/
def quoteChar (c : Char) : String :=
  match c with
  | '\x00' => "\\0"
  | '\t' => "\\t"
  | '\r' => "\\r"
  | '\n' => "\\n"
  | '"' => "\\\""
  | '\\' => "\\\\"
  | _ =>
    if isGraphemeExtend c || !isPrintable c then "\\u\x7b" ++ hexDigits c.toNat ++ "\x7d"
    else String.singleton c

def quote (s : String) : String := "\"" ++ String.join (s.toList.map quoteChar) ++ "\""

/-! ## Back again -/

/-- What an escape inside double quotes stands for. `code` is the number read so far, inside the
braces of `\u`; a backslash at the end of a line takes the blanks of the next one with it, which
`skip` says. -/
def unescape? (skip : Bool) : Option Nat → List Char → Option (List Char)
  | some n, '\x7d' :: r => (Char.ofNat n :: ·) <$> unescape? false none r
  | some n, '_' :: r => unescape? false (some n) r
  | some n, c :: r => do unescape? false (some (16 * n + (← digitValue? c))) r
  | some _, [] => none
  | none, '\\' :: 'u' :: '\x7b' :: r => unescape? false (some 0) r
  | none, '\\' :: 'x' :: a :: b :: r => do
    let c := Char.ofNat (16 * (← digitValue? a) + (← digitValue? b))
    (c :: ·) <$> unescape? false none r
  | none, '\\' :: '0' :: r => ('\x00' :: ·) <$> unescape? false none r
  | none, '\\' :: 't' :: r => ('\t' :: ·) <$> unescape? false none r
  | none, '\\' :: 'r' :: r => ('\r' :: ·) <$> unescape? false none r
  | none, '\\' :: 'n' :: r => ('\n' :: ·) <$> unescape? false none r
  | none, '\\' :: '\n' :: r => unescape? true none r
  | none, '\\' :: '\r' :: '\n' :: r => unescape? true none r
  | none, '\\' :: c :: r => (c :: ·) <$> unescape? false none r
  | none, '\r' :: '\n' :: r => unescape? skip none ('\n' :: r)
  | none, c :: r =>
    if skip && (c == ' ' || c == '\t' || c == '\n' || c == '\r') then unescape? true none r
    else (c :: ·) <$> unescape? false none r
  | none, [] => some []
termination_by _ cs => cs.length

/-- The text that a quoted literal stands for, one without escapes included. -/
def unquote? (s : String) : Option String :=
  match s.toList with
  | '"' :: r =>
    if r.getLast? = some '"' then String.ofList <$> unescape? false none r.dropLast else none
  | 'r' :: r =>
    let marks := (r.takeWhile (· == '#')).length
    match r.drop marks with
    | '"' :: inner =>
      if inner.drop (inner.length - marks - 1) = '"' :: List.replicate marks '#' then
        some (String.ofList (inner.take (inner.length - marks - 1)))
      else none
    | _ => none
  | _ => none

end WrapperGen.Text
