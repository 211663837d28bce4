import WrapperGen.Text.Replace
/-!
# Ignore rules

The lines of an ignore file. A line is a pattern for paths below the directory of the file, or for
names at any depth when it has no slash inside. Among the lines that match, the last one decides.
Paths are matched byte by byte.
-/

namespace WrapperGen.Files

/-! ## Patterns -/

/-- What a bracket lists, as bytes. -/
structure ByteSet where
  negated : Bool
  ranges : List (Nat × Nat)
deriving DecidableEq, Repr

namespace ByteSet

def contains (s : ByteSet) (b : Nat) : Bool :=
  s.ranges.any (fun r => r.1 ≤ b && b ≤ r.2) != s.negated

end ByteSet

inductive IgnoreMatcher
  | byte (b : Nat)
  /-- Any byte of a name. -/
  | anyByte
  /-- Any bytes of a name. -/
  | anyBytes
  | oneOf (set : ByteSet)
  /-- Nothing, or directories at the beginning. -/
  | leadingDirectories
  /-- A slash, or directories between two slashes. -/
  | innerDirectories
  /-- A slash and all that follows. -/
  | allBelow
deriving DecidableEq, Repr

namespace IgnoreMatcher

def slash : Nat := 47

def bytesOf (s : String) : List Nat := s.toUTF8.toList.map (·.toNat)

def charBytes (c : Char) : List Nat := bytesOf (String.singleton c)

/-- The ranges of the bytes of two characters with a dash between them. -/
def rangeBytes (a b : Char) : List (Nat × Nat) :=
  let single (x : Nat) := (x, x)
  if a = b then (charBytes a).map single
  else match (charBytes a).getLast?, charBytes b with
    | some last, first :: more => (charBytes a).dropLast.map single ++ (last, first) :: more.map single
    | _, _ => []

/-- Reads the inside of a bracket. `done` are the ranges so far, latest first, and `dash` tells
whether the last of them goes on. -/
def readRanges : Bool → List (Char × Char) → List Char → Option (List (Char × Char) × List Char)
  | _, _, [] => none
  | dash, done, c :: r =>
    if c = ']' && !done.isEmpty then some ((if dash then ('-', '-') :: done else done).reverse, r)
    else if c = '-' && !done.isEmpty && !dash then readRanges true done r
    else
      match dash, done with
      | true, (a, _) :: before => if a ≤ c then readRanges false ((a, c) :: before) r else none
      | _, _ => readRanges false ((c, c) :: done) r

def readSet (cs : List Char) : Option (ByteSet × List Char) :=
  let (negated, inside) := match cs with
    | '!' :: r | '^' :: r => (true, r)
    | _ => (false, cs)
  (readRanges false [] inside).map fun (ranges, rest) =>
    (⟨negated, ranges.flatMap fun (a, b) => rangeBytes a b⟩, rest)

/-- Puts a wildcard for directories behind what was read, in the place of the slash before it. -/
def addDirectories (m : IgnoreMatcher) : List IgnoreMatcher → List IgnoreMatcher
  | .leadingDirectories :: r => .leadingDirectories :: r
  | .allBelow :: r => .allBelow :: r
  | _ :: r => m :: r
  | [] => [m]

/-- Reads a pattern. `before` is the character before it and `done` what was read so far, latest
first. -/
def readFrom : Nat → Option Char → List IgnoreMatcher → List Char → Option (List IgnoreMatcher)
  | 0, _, done, _ => some done.reverse
  | _, _, done, [] => some done.reverse
  | fuel + 1, before, done, '*' :: '*' :: r =>
    let plain := fun _ : Unit => readFrom fuel (some '*') (.anyBytes :: .anyBytes :: done) r
    if done.isEmpty then
      match r with
      | [] => some [.leadingDirectories]
      | '/' :: r => readFrom fuel (some '/') [.leadingDirectories] r
      | _ => plain ()
    else if before == some '/' then
      match r with
      | [] => some (addDirectories .allBelow done).reverse
      | '/' :: r => readFrom fuel (some '/') (addDirectories .innerDirectories done) r
      | _ => plain ()
    else plain ()
  | fuel + 1, _, done, '*' :: r => readFrom fuel (some '*') (.anyBytes :: done) r
  | fuel + 1, _, done, '?' :: r => readFrom fuel (some '?') (.anyByte :: done) r
  | fuel + 1, _, done, '[' :: r =>
    match readSet r with
    | some (set, r) => readFrom fuel (some ']') (.oneOf set :: done) r
    | none => none
  | _ + 1, _, _, ['\\'] => none
  | fuel + 1, _, done, '\\' :: c :: r =>
    readFrom fuel (some c) (((charBytes c).map .byte).reverse ++ done) r
  | fuel + 1, _, done, c :: r =>
    readFrom fuel (some c) (((charBytes c).map .byte).reverse ++ done) r

/-! ## Matching -/

/-- What can be left after bytes of one name. -/
def afterName : List Nat → List (List Nat)
  | [] => [[]]
  | b :: bs => (b :: bs) :: if b = slash then [] else afterName bs

/-- What follows each slash. -/
def afterSlashes : List Nat → List (List Nat)
  | [] => []
  | b :: bs => if b = slash then bs :: afterSlashes bs else afterSlashes bs

def tails : List Nat → List (List Nat)
  | [] => [[]]
  | b :: bs => (b :: bs) :: tails bs

def matchesFrom : List IgnoreMatcher → List Nat → Bool
  | [], bs => bs.isEmpty
  | .anyBytes :: ms, bs => (afterName bs).any (matchesFrom ms)
  | .leadingDirectories :: ms, bs => (bs :: afterSlashes bs).any (matchesFrom ms)
  | _ :: _, [] => false
  | .innerDirectories :: ms, b :: bs =>
    b == slash && (bs :: afterSlashes bs).any (matchesFrom ms)
  | .allBelow :: ms, b :: bs => b == slash && (tails bs).any (matchesFrom ms)
  | .byte a :: ms, b :: bs => a == b && matchesFrom ms bs
  | .anyByte :: ms, b :: bs => b != slash && matchesFrom ms bs
  | .oneOf set :: ms, b :: bs => set.contains b && matchesFrom ms bs

end IgnoreMatcher

/-! ## Alternatives -/

/-- The alternatives inside braces, which may hold braces themselves, and what follows them.
`depth` counts the braces that are open inside and `acc` is the current alternative, latest first. -/
def readAlternatives : Nat → List Char → List Char → Option (List (List Char) × List Char)
  | _, _, [] => none
  | depth, acc, '\\' :: c :: r => readAlternatives depth (c :: '\\' :: acc) r
  | 0, acc, '}' :: r => some ([acc.reverse], r)
  | 0, acc, ',' :: r => (readAlternatives 0 [] r).map fun (others, r) => (acc.reverse :: others, r)
  | depth + 1, acc, '}' :: r => readAlternatives depth ('}' :: acc) r
  | depth, acc, '{' :: r => readAlternatives (depth + 1) ('{' :: acc) r
  | depth, acc, c :: r => readAlternatives depth (c :: acc) r

/-- The patterns that a pattern with braces stands for. `done` is what comes before, latest
first. -/
def expandBraces : Nat → List Char → List Char → Option (List (List Char))
  | 0, done, cs => some [done.reverse ++ cs]
  | _, done, [] => some [done.reverse]
  | fuel + 1, done, '\\' :: c :: r => expandBraces fuel (c :: '\\' :: done) r
  | _, _, '}' :: _ => none
  | fuel + 1, done, '{' :: r =>
    match readAlternatives 0 [] r with
    | none => none
    | some (options, r) => do
      let expanded ← options.mapM fun o => expandBraces fuel done (o ++ r)
      return expanded.flatten
  | fuel + 1, done, c :: r => expandBraces fuel (c :: done) r

/-! ## Rules -/

inductive Verdict
  | ignore
  | keep
deriving DecidableEq, Repr

structure IgnoreRule where
  /-- The row of matchers of each alternative. -/
  patterns : List (List IgnoreMatcher)
  verdict : Verdict
  directoriesOnly : Bool
deriving DecidableEq, Repr

namespace IgnoreRule

def isBlank (c : Char) : Bool :=
  let n := c.toNat
  (9 ≤ n && n ≤ 13) || (0x2000 ≤ n && n ≤ 0x200A) ||
    [0x20, 0x85, 0xA0, 0x1680, 0x2028, 0x2029, 0x202F, 0x205F, 0x3000].contains n

def trimEnd (cs : List Char) : List Char := (cs.reverse.dropWhile isBlank).reverse

/-- A pattern that says at which depth it applies and what lies below. -/
def anchored (absolute : Bool) (cs : List Char) : List Char :=
  let cs :=
    if absolute || cs.contains '/' || cs == ['*', '*'] then cs else '*' :: '*' :: '/' :: cs
  if cs.drop (cs.length - 3) == ['/', '*', '*'] then cs ++ ['/', '*'] else cs

/-- Splits the mark of a pattern for directories off. -/
def directoryMark (cs : List Char) : Bool × List Char :=
  match cs.reverse with
  | '/' :: '\\' :: r => (true, r.reverse)
  | '/' :: r => (true, r.reverse)
  | _ => (false, cs)

/-- The rule of a line, if it is one. -/
def ofLine (line : String) : Option IgnoreRule :=
  let cs := line.toList
  let cs := if line.endsWith "\\ " then cs else trimEnd cs
  let (verdict, absolute, cs) : Verdict × Bool × List Char :=
    match cs with
    | '\\' :: '!' :: r => (.ignore, false, '!' :: r)
    | '\\' :: '#' :: r => (.ignore, false, '#' :: r)
    | '!' :: '/' :: r => (.keep, true, r)
    | '!' :: r => (.keep, false, r)
    | '/' :: r => (.ignore, true, r)
    | _ => (.ignore, false, cs)
  let (directoriesOnly, cs) := directoryMark cs
  if line.startsWith "#" || (trimEnd line.toList).isEmpty then none
  else do
    let expanded ← expandBraces (10 * cs.length + 10) [] (anchored absolute cs)
    let patterns ← expanded.mapM fun p => IgnoreMatcher.readFrom p.length none [] p
    return ⟨patterns, verdict, directoriesOnly⟩

def applies (r : IgnoreRule) (path : List Nat) (isDirectory : Bool) : Bool :=
  (!r.directoriesOnly || isDirectory) && r.patterns.any (IgnoreMatcher.matchesFrom · path)

end IgnoreRule

/-- The rules of an ignore file's text. -/
def ignoreRules (text : String) : List IgnoreRule :=
  let text := if text.startsWith "\uFEFF" then (text.drop 1).toString else text
  (Text.lines text).filterMap IgnoreRule.ofLine

/-- What the last rule that applies to a path says. The path is given by its names. -/
def verdict? (rules : List IgnoreRule) (names : List String) (isDirectory : Bool) :
    Option Verdict :=
  let path := IgnoreMatcher.bytesOf ("/".intercalate names)
  (rules.reverse.find? (·.applies path isDirectory)).map (·.verdict)

end WrapperGen.Files
