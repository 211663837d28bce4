import WrapperGen.Text.Letter
/-!
# Snake case

Splits a name into words where its case changes and joins them in lower case with `_`.
-/

namespace WrapperGen.Text

/-- The case of the last letter of the current word that has one. -/
inductive WordMode
  | boundary
  | lower
  | upper
deriving DecidableEq, Repr

/-- The words of a name without separators. `acc` is the current word so far, latest first. -/
def caseWords : WordMode → List Char → List Char → List (List Char)
  | _, _, [] => []
  | _, acc, [c] => [(c :: acc).reverse]
  | mode, acc, c :: next :: rest =>
    let here := if isLower c then .lower else if isUpper c then .upper else mode
    if here = .lower && isUpper next then
      (c :: acc).reverse :: caseWords .boundary [] (next :: rest)
    else if mode = .upper && isUpper c && isLower next then
      acc.reverse :: caseWords .boundary [c] (next :: rest)
    else caseWords here (c :: acc) (next :: rest)

/-- The runs of letters and digits. -/
def alphanumericRuns : List Char → List Char → List (List Char)
  | acc, [] => [acc.reverse]
  | acc, c :: r =>
    if isAlphanumeric c then alphanumericRuns (c :: acc) r
    else acc.reverse :: alphanumericRuns [] r

/-- A word in lower case; a sigma at its end takes its final form. -/
def lowerWord : List Char → List Char
  | [] => []
  | ['Σ'] => ['ς']
  | c :: r => toLower c ++ lowerWord r

def snakeCase (s : String) : String :=
  let words := (alphanumericRuns [] s.toList).flatMap (caseWords .boundary [])
  "_".intercalate (words.map fun w => String.ofList (lowerWord w))

end WrapperGen.Text
