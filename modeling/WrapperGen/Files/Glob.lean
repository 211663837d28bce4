/-!
# Glob patterns

A pattern is a row of matchers. `*` matches any characters, slashes too; `**` stands for whole
directories and must be a component of its own.
-/

namespace WrapperGen.Files

/-- What a bracket lists. A single character is a range of one. -/
structure CharRange where
  first : Char
  last : Char
deriving DecidableEq, Repr

inductive Matcher
  | char (c : Char)
  | anyChar
  | anySequence
  | anyDirectories
  | oneOf (ranges : List CharRange)
  | noneOf (ranges : List CharRange)
deriving DecidableEq, Repr

/-- A pattern that is none: what is wrong and before which character. -/
structure GlobError where
  position : Nat
  message : String
deriving DecidableEq, Repr

namespace GlobError

def text (e : GlobError) : String :=
  "Pattern syntax error near position " ++ toString e.position ++ ": " ++ e.message

end GlobError

structure Glob where
  matchers : List Matcher
deriving DecidableEq, Repr

namespace Glob

/-! ## Reading a pattern -/

/-- The ranges inside brackets. -/
def readRanges : List Char → List CharRange
  | a :: '-' :: b :: r => ⟨a, b⟩ :: readRanges r
  | a :: r => ⟨a, a⟩ :: readRanges r
  | [] => []

/-- The characters up to the closing bracket, which cannot be the first, and those after it. -/
def closeBracket? : List Char → Option (List Char × List Char)
  | [] => none
  | c :: r =>
    match r.dropWhile (· != ']') with
    | [] => none
    | _ :: after => some (c :: r.takeWhile (· != ']'), after)

def bracket? : List Char → Option (Matcher × List Char)
  | '!' :: r => (closeBracket? r).map fun (cs, after) => (.noneOf (readRanges cs), after)
  | r => (closeBracket? r).map fun (cs, after) => (.oneOf (readRanges cs), after)

/-- Reads a pattern from position `i` on. `before` is the character before it and `done` what was
read so far, latest first. -/
def readFrom : Nat → Nat → Option Char → List Matcher → List Char → Except GlobError (List Matcher)
  | 0, _, _, done, _ => .ok done.reverse
  | _, _, _, done, [] => .ok done.reverse
  | fuel + 1, i, _, done, '?' :: r => readFrom fuel (i + 1) (some '?') (.anyChar :: done) r
  | _, i, _, _, '*' :: '*' :: '*' :: _ =>
    .error ⟨i + 2, "wildcards are either regular `*` or recursive `**`"⟩
  | fuel + 1, i, before, done, '*' :: '*' :: r =>
    let own := "recursive wildcards must form a single path component"
    let done' :=
      if done.length > 1 && done.head? == some .anyDirectories then done else .anyDirectories :: done
    if before.all (· == '/') then
      match r with
      | [] => .ok done'.reverse
      | '/' :: r => readFrom fuel (i + 3) (some '/') done' r
      | _ => .error ⟨i + 2, own⟩
    else .error ⟨i - 1, own⟩
  | fuel + 1, i, _, done, '*' :: r => readFrom fuel (i + 1) (some '*') (.anySequence :: done) r
  | fuel + 1, i, _, done, '[' :: r =>
    match bracket? r with
    | some (m, after) => readFrom fuel (i + 1 + r.length - after.length) (some ']') (m :: done) after
    | none => .error ⟨i, "invalid range pattern"⟩
  | fuel + 1, i, _, done, c :: r => readFrom fuel (i + 1) (some c) (.char c :: done) r

def parse (text : String) : Except GlobError Glob := do
  let cs := text.toList
  return ⟨← readFrom cs.length 0 none [] cs⟩

/-! ## Matching -/

def inRanges (c : Char) (ranges : List CharRange) : Bool :=
  ranges.any fun r => r.first ≤ c && c ≤ r.last

def suffixes : List Char → List (List Char)
  | [] => [[]]
  | c :: cs => (c :: cs) :: suffixes cs

/-- What can be left after whole directories: everything, what follows a slash, or nothing. -/
def afterDirectories (cs : List Char) : List (List Char) :=
  let rec afterSlash : List Char → List (List Char)
    | [] => [[]]
    | '/' :: cs => cs :: afterSlash cs
    | _ :: cs => afterSlash cs
  cs :: afterSlash cs

def matchesFrom : List Matcher → List Char → Bool
  | [], cs => cs.isEmpty
  | .anySequence :: ms, cs => (suffixes cs).any (matchesFrom ms)
  | .anyDirectories :: ms, cs => (afterDirectories cs).any (matchesFrom ms)
  | _ :: _, [] => false
  | .char a :: ms, c :: cs => a == c && matchesFrom ms cs
  | .anyChar :: ms, _ :: cs => matchesFrom ms cs
  | .oneOf rs :: ms, c :: cs => inRanges c rs && matchesFrom ms cs
  | .noneOf rs :: ms, c :: cs => !inRanges c rs && matchesFrom ms cs

def matches? (g : Glob) (text : String) : Bool := matchesFrom g.matchers text.toList

end Glob

end WrapperGen.Files
