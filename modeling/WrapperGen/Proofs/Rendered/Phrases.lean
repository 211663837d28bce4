import WrapperGen.Proofs.Rendered.Taking
import WrapperGen.Proofs.Source.Nesting
import WrapperGen.Proofs.Source.Types
/-!
# Phrases that can be written

`Phrase.IsFormed` says what holds of every phrase that is read, one level deep: which words stand
where, that lifetimes come first, that what ends before a `+` is no sum of bounds. `Phrase.IsPlain`
leaves out what a line of text does not keep apart (an expression, raw tokens, a path that begins
with `::` after a colon) and what only old or unstable code has (bounds without `dyn`, captures).
`Phrase.All` carries such a condition to everything in a phrase.
-/

namespace WrapperGen.Source

open Tree

/-- The condition holds of the phrase and of everything in it. -/
inductive Phrase.All (P : Phrase → Prop) : Phrase → Prop
  | intro {x : Phrase} (here : P x) (inside : ∀ y ∈ x.children, All P y) : All P x

namespace Phrase.All

variable {P Q : Phrase → Prop} {x y : Phrase}

theorem here (h : x.All P) : P x := by
  cases h
  assumption

theorem child (h : x.All P) (hy : y ∈ x.children) : y.All P := by
  cases h
  exact ‹∀ y ∈ x.children, All P y› y hy

theorem mono (h : x.All P) (hPQ : ∀ y, P y → Q y) : x.All Q := by
  induction h with
  | intro here _ ih => exact .intro (hPQ _ here) ih

theorem and (hP : x.All P) (hQ : x.All Q) : x.All fun y => P y ∧ Q y := by
  induction hP with
  | intro here _ ih => exact .intro ⟨here, hQ.here⟩ fun y hy => ih y hy (hQ.child hy)

end Phrase.All

/-! ## Lists of phrases -/

theorem tyTrees_eq (ts : List Ty) : tyTrees ts = ts.map Ty.trees := by
  induction ts with
  | nil => rfl
  | cons t ts ih => rw [tyTrees, ih, List.map_cons]

theorem genericArgTrees_eq (as : List GenericArg) :
    genericArgTrees as = as.map GenericArg.trees := by
  induction as with
  | nil => rfl
  | cons a as ih => rw [genericArgTrees, ih, List.map_cons]

theorem boundTrees_eq (bs : List Bound) : boundTrees bs = bs.map Bound.trees := by
  induction bs with
  | nil => rfl
  | cons b bs ih => rw [boundTrees, ih, List.map_cons]

theorem genericParamTrees_eq (ps : List GenericParam) :
    genericParamTrees ps = ps.map GenericParam.trees := by
  induction ps with
  | nil => rfl
  | cons p ps ih => rw [genericParamTrees, ih, List.map_cons]

theorem paramTrees_eq (ps : List FnPointerParam) : paramTrees ps = ps.map FnPointerParam.trees := by
  induction ps with
  | nil => rfl
  | cons p ps ih => rw [paramTrees, ih, List.map_cons]

/-! ## Tokens -/

/-- Whether the text is one word, raw or not. -/
def isWordText (text : String) : Bool := Lexer.anyIdent? text.toList == some []

/-- Whether the text is an apostrophe and a word. -/
def isLifetimeText (text : String) : Bool :=
  match text.toList with
  | '\'' :: cs => Lexer.anyIdent? cs == some []
  | _ => false

/-- Whether the text is a number that is written as a word. -/
def isNumberText (text : String) : Bool :=
  text.toList.head?.any Char.isDigit && text.toList.all Text.isIdentContinue &&
    Lexer.literal? text.toList == some []

/-- Whether the text is a quoted word. -/
def isQuotedWord (text : String) : Bool :=
  match text.toList with
  | '"' :: cs => cs.getLast? == some '"' && cs.dropLast.all fun c => c.isAlphanum || c == '-'
  | _ => false

theorem front_of_toList {text : String} {c : Char} {cs : List Char} (h : text.toList = c :: cs) :
    text.front = c := by
  rw [String.front_eq, String.front?_eq, h]
  rfl

theorem isQuotedWord_iff {text : String} : isQuotedWord text ↔
    ∃ cs, text.toList = '"' :: (cs ++ ['"']) ∧ ∀ c ∈ cs, c.isAlphanum || c == '-' := by
  unfold isQuotedWord
  split
  · rename_i cs htext
    rw [htext]
    simp only [Bool.and_eq_true, beq_iff_eq, List.all_eq_true, List.cons.injEq, true_and]
    constructor
    · rintro ⟨hlast, hall⟩
      exact ⟨cs.dropLast, (List.dropLast_append_getLast? _ hlast).symm, hall⟩
    · rintro ⟨ds, rfl, hall⟩
      rw [List.getLast?_concat, List.dropLast_concat]
      exact ⟨rfl, hall⟩
  · rename_i hno
    simp only [Bool.false_eq_true, false_iff]
    rintro ⟨cs, htext, -⟩
    exact hno _ htext

theorem isTextLiteral_of_isQuotedWord {text : String} (h : isQuotedWord text) :
    isTextLiteral text := by
  obtain ⟨cs, htext, -⟩ := isQuotedWord_iff.1 h
  rw [isTextLiteral, front_of_toList htext]
  rfl

theorem front_of_isNumberText {text : String} (h : isNumberText text) :
    ∃ c cs, text.toList = c :: cs ∧ c.isDigit := by
  unfold isNumberText at h
  cases htext : text.toList with
  | nil => simp [htext] at h
  | cons c cs =>
    simp only [htext, List.head?_cons, Option.any_some, Bool.and_eq_true] at h
    exact ⟨c, cs, rfl, h.1.1⟩

/-! ## Words -/

/-- A word that may stand in a path, with arguments only after a name or `Self`. -/
def Segment.isFormed (s : Segment) : Bool :=
  isPathWord s.name && isWordText s.name &&
    match s.args with
    | .none => true
    | .angle .. => isName s.name || s.name == "Self"
    | .paren .. => false

/-- The path of a trait that is called: its last word is applied to types in parentheses. -/
def Segment.isCalled (s : Segment) : Bool :=
  isPathWord s.name && isWordText s.name && s.args matches .paren ..

def Path.isFormed (p : Path) : Bool := !p.segments.isEmpty && p.segments.all Segment.isFormed

theorem Path.isFormed_iff {p : Path} :
    p.isFormed ↔ p.segments ≠ [] ∧ ∀ s ∈ p.segments, s.isFormed := by
  simp [isFormed]

/-- Whether a type may begin with the path; the word `try` begins none. -/
def Path.opensType (p : Path) : Bool := p.leading || !(p.segments.head?.any (·.name == "try"))

def Path.isBound (p : Path) : Bool :=
  p.segments.dropLast.all Segment.isFormed &&
    p.segments.getLast?.any fun s => s.isFormed || s.isCalled

/-! ## Bounds -/

def Bound.isTrait : Bound → Bool
  | .trait .. => true
  | _ => false

/-- Whether the type is no sum of bounds, so that it may stand before a `+`. -/
def Ty.isSingle : Ty → Bool
  | .traitObject _ bs trailing | .implTrait bs trailing => bs.length == 1 && !trailing
  | _ => true

namespace GenericArg

def isLifetime : GenericArg → Bool
  | .lifetime _ => true
  | _ => false

/-- The path that an associated type is read as. -/
def assocPath (name : String) (args : Args) : Path := ⟨false, [⟨name, args⟩]⟩

end GenericArg

/-! ## Formed phrases -/

namespace Phrase

def IsFormed : Phrase → Prop
  | ty (.fnPointer _ _ abi ps trailing _ output) =>
    (ps = [] → trailing = false) ∧ (∀ t, output = some t → t.isSingle) ∧
      ∀ t, abi = some (some t) → isTextLiteral t
  | ty (.implTrait bs _) | ty (.traitObject _ bs _) => bs.any Bound.isTrait
  | ty (.path p) => p.isFormed ∧ p.opensType
  | ty (.projection _ position p) =>
    p.isFormed ∧ position < p.segments.length ∧ (position = 0 → p.leading = true)
  | ty (.pointer _ e) => e.isSingle
  | ty (.reference l _ e) => e.isSingle ∧ ∀ t, l = some t → isLifetimeText t
  | ty (.tuple es trailing) => (es = [] → trailing = false) ∧ (es.length = 1 → trailing = true)
  | args (.angle _ as trailing) =>
    as = as.filter GenericArg.isLifetime ++ as.filter (!·.isLifetime) ∧ (as = [] → trailing = false)
  | args (.paren ts trailing output) =>
    (ts = [] → trailing = false) ∧ ∀ t, output = some t → t.isSingle
  | genericArg (.lifetime name) => isLifetimeText name
  | genericArg (.assocType name a _) | genericArg (.assocConst name a _)
  | genericArg (.constraint name a _ _) =>
    (GenericArg.assocPath name a).isFormed ∧ (GenericArg.assocPath name a).opensType
  | bound (.lifetime name) => isLifetimeText name
  | bound (.trait _ _ _ p) => p.isBound
  | binder ⟨ps, trailing⟩ => ps = [] → trailing = false
  | genericParam (.lifetime _ name bs) => isLifetimeText name ∧ ∀ b ∈ bs, isLifetimeText b
  | fnPointerParam ⟨_, name, _⟩ => ∀ n, name = some n → isWordText n
  | _ => True

/-! ## Plain phrases -/

/-- A number that is written as a word, a quoted word or a truth value. -/
def isPlainLiteral : Node → Bool
  | .token (.literal text) =>
    isNumberText text || isQuotedWord text ||
      match text.toList with
      | '-' :: cs => isNumberText (String.ofList cs)
      | _ => false
  | .token (.ident text) => text == "true" || text == "false"
  | _ => false

/-- A path of words. -/
def isPlainPath : Node → Bool
  | .path p => p.isFormed && p.isPlain && p.opensType
  | _ => false

def IsPlain : Phrase → Prop
  | ty (.array _ length) => (isPlainLiteral length ∧ length.trees.length = 1) ∨ isPlainPath length
  | ty (.fnPointer _ _ abi _ _ variadic _) =>
    variadic = [] ∧ ∀ t, abi = some (some t) → isQuotedWord t
  | ty (.implTrait _ trailing) => trailing = false
  | ty (.traitObject hasDyn _ trailing) => hasDyn = true ∧ trailing = false
  | ty (.invocation _ _) | ty (.verbatim _) => False
  | genericArg (.const n) | genericArg (.assocConst _ _ n) => isPlainLiteral n
  | genericArg (.constraint _ _ bs trailing) =>
    trailing = false ∧ peekOp "::" (separated "+" false (boundTrees bs)) = false
  | bound (.capture _ _) | bound (.verbatim _) => False
  | genericParam (.lifetime attrs _ _) => attrs = []
  | genericParam _ => False
  | fnPointerParam ⟨attrs, name, t⟩ =>
    attrs = [] ∧ ∀ n, name = some n → (isName n ∨ n = "_") ∧ peekOp "::" t.trees = false
  | _ => True

end Phrase

end WrapperGen.Source
