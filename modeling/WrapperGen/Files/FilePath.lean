import WrapperGen.Text.Replace
/-!
# File paths

A path is kept as it was written. Two paths are the same when their components are: repeated
slashes, slashes at the end and `.` (except as the first component) do not count.
-/

namespace WrapperGen.Files

inductive Component
  | root
  | current
  | parent
  | normal (name : String)
deriving DecidableEq, Repr

namespace Component

def rank : Component → Nat
  | .root => 0
  | .current => 1
  | .parent => 2
  | .normal _ => 3

/-- The root first, then `.`, then `..`, then names by their characters. -/
def compare : Component → Component → Ordering
  | .normal a, .normal b => Ord.compare a b
  | a, b => Ord.compare a.rank b.rank

def name? : Component → Option String
  | .normal n => some n
  | _ => none

end Component

structure FilePath where
  text : String
deriving DecidableEq, Repr, Inhabited

namespace FilePath

/-- A part of the path's body that is no component. -/
def isFiller (part : List Char) : Bool := part == [] || part == ['.']

/-- The leading `/` or `.` component, as characters, and the parts between the slashes after it. -/
def split (p : FilePath) : List Char × List (List Char) :=
  let parts := Text.splitOn ['/'] 0 []
  match p.text.toList with
  | [] => ([], [])
  | '/' :: r => (['/'], parts r)
  | ['.'] => (['.'], [])
  | '.' :: '/' :: r => (['.'], parts ('/' :: r))
  | cs => ([], parts cs)

def headComponent : List Char → List Component
  | ['/'] => [.root]
  | ['.'] => [.current]
  | _ => []

def partComponent (part : List Char) : Component :=
  if part == ['.', '.'] then .parent else .normal (String.ofList part)

def components (p : FilePath) : List Component :=
  let (head, parts) := p.split
  headComponent head ++ (parts.filter (!isFiller ·)).map partComponent

/-- The parts up to the last that is a component. -/
def trimEnd (parts : List (List Char)) : List (List Char) :=
  (parts.reverse.dropWhile isFiller).reverse

def joinParts (parts : List (List Char)) : List Char := ['/'].intercalate parts

/-- Whether both paths have the same components. -/
def same (p q : FilePath) : Bool := p.components == q.components

def compareComponents : List Component → List Component → Ordering
  | [], [] => .eq
  | [], _ :: _ => .lt
  | _ :: _, [] => .gt
  | a :: as, b :: bs => (a.compare b).then (compareComponents as bs)

/-- The order by components. -/
def compare (p q : FilePath) : Ordering := compareComponents p.components q.components

instance : Ord FilePath := ⟨compare⟩

def isAbsolute (p : FilePath) : Bool := p.text.toList.head? == some '/'

def endsInSlash (p : FilePath) : Bool := p.text.toList.getLast? == some '/'

/-- `p` followed by `q`; an absolute `q` takes the place of `p`. -/
def join (p q : FilePath) : FilePath :=
  if q.isAbsolute then q
  else if p.text.isEmpty || p.endsInSlash then ⟨p.text ++ q.text⟩
  else ⟨p.text ++ "/" ++ q.text⟩

/-- The path of the directory: the text before the last component, which must not be the root. -/
def parent? (p : FilePath) : Option FilePath :=
  let (head, parts) := p.split
  match trimEnd parts with
  | [] => if head == ['.'] then some ⟨""⟩ else none
  | parts => some ⟨String.ofList (head ++ joinParts (trimEnd parts.dropLast))⟩

/-- `p` and the directories above it, at most `n`, the innermost first. -/
def ancestors (p : FilePath) : Nat → List FilePath
  | 0 => []
  | n + 1 =>
    p :: match p.parent? with
      | some q => q.ancestors n
      | none => []

/-- The parts after the first `n` components. -/
def dropComponents : Nat → List (List Char) → List (List Char)
  | 0, parts => parts.dropWhile isFiller
  | _, [] => []
  | n + 1, part :: parts =>
    if isFiller part then dropComponents (n + 1) parts else dropComponents n parts

/-- What follows `base` in `p`, if `p` begins with the components of `base`. -/
def stripBase? (base p : FilePath) : Option FilePath :=
  let n := base.components.length
  if p.components.take n == base.components then
    let (head, parts) := p.split
    if n = 0 then some ⟨String.ofList (head ++ joinParts (trimEnd parts))⟩
    else
      let inBody := n - (headComponent head).length
      some ⟨String.ofList (joinParts (trimEnd (dropComponents inBody parts)))⟩
  else none

def fileName? (p : FilePath) : Option String := p.components.getLast?.bind (·.name?)

/-- What follows the last dot of the file name, which must not be its first character. -/
def extension? (p : FilePath) : Option String := do
  let name ← p.fileName?
  let cs := name.toList.reverse
  match cs.dropWhile (· != '.') with
  | [] | ['.'] => none
  | _ => some (String.ofList (cs.takeWhile (· != '.')).reverse)

end FilePath

end WrapperGen.Files
