/-!
# Replacing text

`replaceAll` puts one text in the place of every occurrence of another, from left to right and
without overlaps.
-/

namespace WrapperGen.Text

/-- `skip` characters still belong to the occurrence that was replaced last. -/
def replaceFrom (found by' : List Char) : Nat → List Char → List Char
  | _, [] => []
  | skip + 1, _ :: r => replaceFrom found by' skip r
  | 0, c :: r =>
    if found.isPrefixOf (c :: r) then by' ++ replaceFrom found by' (found.length - 1) r
    else c :: replaceFrom found by' 0 r

def replaceAll (found by' : String) (s : String) : String :=
  String.ofList (replaceFrom found.toList by'.toList 0 s.toList)

/-- The texts between the occurrences of `sep`. -/
def splitOn (sep : List Char) : Nat → List Char → List Char → List (List Char)
  | _, acc, [] => [acc.reverse]
  | skip + 1, acc, _ :: r => splitOn sep skip acc r
  | 0, acc, c :: r =>
    if sep.isPrefixOf (c :: r) then acc.reverse :: splitOn sep (sep.length - 1) [] r
    else splitOn sep 0 (c :: acc) r

/-- The parts of a path text with `::` between them. -/
def splitPath (s : String) : List String :=
  (splitOn [':', ':'] 0 [] s.toList).map String.ofList

def join (sep : String) (parts : List String) : String := sep.intercalate parts

/-- Whether `found` occurs in the characters. -/
def occurs (found : List Char) : List Char → Bool
  | [] => found.isEmpty
  | c :: r => found.isPrefixOf (c :: r) || occurs found r

/-- Whether the text occurs in `s`. -/
def contains (found s : String) : Bool := occurs found.toList s.toList

/-- The lines of a text. The last line need not end; a return before a line end goes with it. -/
def lines (s : String) : List String :=
  let parts := splitOn ['\n'] 0 [] s.toList
  let parts := if parts.getLast? == some [] then parts.dropLast else parts
  let ended := parts.length - if s.endsWith "\n" then 0 else 1
  parts.zipIdx.map fun (part, i) =>
    match part.reverse with
    | '\r' :: r => String.ofList (if i < ended then r.reverse else part)
    | _ => String.ofList part

end WrapperGen.Text
