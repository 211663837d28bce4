import Mathlib.Tactic.Common
import WrapperGen.Source.Reader
/-!
# Reading without places

`unplaced` takes the places out of trees. Readers look at kinds and texts of tokens only, so what a
reader gives on trees without places is what it gives on the trees, with the places taken out of
that. Here are the ways that readers are put together. All lemmas push `unplaced` to the outside,
so that `simp` proves the same of what is put together from known readers.
-/

namespace WrapperGen.Source

/-! ## Trees without places -/

mutual
/-- The tree with each of its tokens at the start of the text. -/
def Tree.unplaced : Tree → Tree
  | .leaf t _ => .leaf t .start
  | .group d ts _ _ => .group d (Tree.allUnplaced ts) .start .start
def Tree.allUnplaced : List Tree → List Tree
  | [] => []
  | t :: ts => t.unplaced :: Tree.allUnplaced ts
end

namespace Tree

variable (ts : List Tree)

@[simp] theorem unplaced_leaf (t : Token) (pos : Pos) : (leaf t pos).unplaced = leaf t .start := rfl

@[simp] theorem unplaced_group (d : Delim) (opened closed : Pos) :
    (group d ts opened closed).unplaced = group d (allUnplaced ts) .start .start := rfl

@[simp] theorem pos_unplaced (t : Tree) : t.unplaced.pos = .start := by cases t <;> rfl

@[simp] theorem allUnplaced_nil : allUnplaced [] = [] := rfl

@[simp] theorem allUnplaced_cons (t : Tree) :
    allUnplaced (t :: ts) = t.unplaced :: allUnplaced ts := rfl

theorem allUnplaced_eq : allUnplaced ts = ts.map unplaced := by
  induction ts with
  | nil => rfl
  | cons t ts ih => rw [allUnplaced_cons, ih, List.map_cons]

@[simp] theorem allUnplaced_eq_nil : allUnplaced ts = [] ↔ ts = [] := by simp [allUnplaced_eq]

@[simp] theorem length_allUnplaced : (allUnplaced ts).length = ts.length := by
  simp [allUnplaced_eq]

@[simp] theorem isEmpty_allUnplaced : (allUnplaced ts).isEmpty = ts.isEmpty := by
  simp [allUnplaced_eq]

@[simp] theorem tail_allUnplaced : (allUnplaced ts).tail = allUnplaced ts.tail := by
  simp [allUnplaced_eq]

theorem allUnplaced_append (us : List Tree) :
    allUnplaced (ts ++ us) = allUnplaced ts ++ allUnplaced us := by
  simp [allUnplaced_eq]

theorem allUnplaced_reverse : allUnplaced ts.reverse = (allUnplaced ts).reverse := by
  simp [allUnplaced_eq]

@[simp] theorem drop_allUnplaced (n : Nat) :
    (allUnplaced ts).drop n = allUnplaced (ts.drop n) := by
  simp [allUnplaced_eq]

@[simp] theorem take_allUnplaced (n : Nat) :
    (allUnplaced ts).take n = allUnplaced (ts.take n) := by
  simp [allUnplaced_eq]

@[simp] theorem head?_allUnplaced : (allUnplaced ts).head? = ts.head?.map unplaced := by
  simp [allUnplaced_eq]

mutual
@[simp] theorem size_unplaced (t : Tree) : t.unplaced.size = t.size := by
  cases t with
  | leaf => rfl
  | group d ts => exact congrArg (· + 2) (sizes_allUnplaced ts)
@[simp] theorem sizes_allUnplaced (ts : List Tree) : sizes (allUnplaced ts) = sizes ts := by
  cases ts with
  | nil => rfl
  | cons t ts => rw [allUnplaced_cons, sizes, sizes, size_unplaced t, sizes_allUnplaced ts]
end

mutual
def decEq (s t : Tree) : Decidable (s = t) :=
  match s, t with
  | .leaf a p, .leaf b q => decidable_of_iff (a = b ∧ p = q) (by rw [leaf.injEq])
  | .group d ts p q, .group e us p' q' =>
    have := allDecEq ts us
    decidable_of_iff (d = e ∧ ts = us ∧ p = p' ∧ q = q') (by rw [group.injEq])
  | .leaf .., .group .. => .isFalse nofun
  | .group .., .leaf .. => .isFalse nofun
def allDecEq (ts us : List Tree) : Decidable (ts = us) :=
  match ts, us with
  | [], [] => .isTrue rfl
  | t :: ts, u :: us =>
    have := decEq t u
    have := allDecEq ts us
    decidable_of_iff (t = u ∧ ts = us) (by rw [List.cons.injEq])
  | [], _ :: _ => .isFalse nofun
  | _ :: _, [] => .isFalse nofun
end

instance : DecidableEq Tree := decEq

end Tree

open Tree

mutual
@[simp] theorem Node.ofTree_unplaced (t : Tree) : ofTree t.unplaced = ofTree t := by
  cases t with
  | leaf => rfl
  | group d ts => exact congrArg (group d) (ofTrees_unplaced ts)
@[simp] theorem Node.ofTrees_unplaced (ts : List Tree) :
    ofTrees (allUnplaced ts) = ofTrees ts := by
  cases ts with
  | nil => rfl
  | cons t ts => rw [allUnplaced_cons, ofTrees, ofTrees, ofTree_unplaced t, ofTrees_unplaced ts]
end

/-! ## Peeking -/

section Peeking

variable (ts : List Tree)

@[simp] theorem peekPunctChars_unplaced (cs : List Char) (ts : List Tree) :
    peekPunctChars cs (allUnplaced ts) = peekPunctChars cs ts := by
  induction cs generalizing ts with
  | nil => rfl
  | cons c cs ih =>
    rcases ts with _ | ⟨⟨t, pos⟩ | _, ts⟩
    · rfl
    · cases cs with
      | nil => cases t <;> rfl
      | cons d cs =>
        rcases t with _ | _ | _ | ⟨t, joint⟩
        case punct => cases joint <;> simp [peekPunctChars, unplaced, ih]
        all_goals rfl
    · cases cs <;> rfl

@[simp] theorem peekOp_unplaced (text : String) : peekOp text (allUnplaced ts) = peekOp text ts :=
  peekPunctChars_unplaced text.toList ts

@[simp] theorem peekWord_unplaced (text : String) :
    peekWord text (allUnplaced ts) = peekWord text ts := by
  rcases ts with _ | ⟨⟨⟨⟩, pos⟩ | _, ts⟩ <;> rfl

@[simp] theorem peekAnyWord_unplaced : peekAnyWord (allUnplaced ts) = peekAnyWord ts := by
  rcases ts with _ | ⟨⟨⟨⟩, pos⟩ | _, ts⟩ <;> rfl

@[simp] theorem peekName_unplaced : peekName (allUnplaced ts) = peekName ts := by
  rcases ts with _ | ⟨⟨⟨⟩, pos⟩ | _, ts⟩ <;> rfl

@[simp] theorem peekLifetime_unplaced : peekLifetime (allUnplaced ts) = peekLifetime ts := by
  rcases ts with _ | ⟨⟨⟨⟩, pos⟩ | _, ts⟩ <;> rfl

@[simp] theorem peekGroup_unplaced (d : Delim) :
    peekGroup d (allUnplaced ts) = peekGroup d ts := by
  rcases ts with _ | ⟨⟨⟨⟩, pos⟩ | _, ts⟩ <;> rfl

@[simp] theorem peekTextLit_unplaced : peekTextLit (allUnplaced ts) = peekTextLit ts := by
  rcases ts with _ | ⟨⟨⟨⟩, pos⟩ | _, ts⟩ <;> rfl

@[simp] theorem peekInt_unplaced : peekInt (allUnplaced ts) = peekInt ts := by
  rcases ts with _ | ⟨⟨⟨⟩, pos⟩ | _, ts⟩ <;> rfl

@[simp] theorem peekLit_unplaced : peekLit (allUnplaced ts) = peekLit ts := by
  rcases ts with _ | ⟨⟨⟨⟩, pos⟩ | _, ts⟩
  case cons.leaf.punct text joint =>
    by_cases hminus : text = "-"
    · subst hminus
      rcases ts with _ | ⟨⟨⟨⟩, pos⟩ | _, ts⟩ <;> rfl
    · simp [peekLit, hminus, unplaced]
  all_goals rfl

end Peeking

/-! ## What reading gives -/

def SyntaxError.unplaced (e : SyntaxError) : SyntaxError := ⟨.start, e.fault⟩

def Cursor.unplaced (c : Cursor) : Cursor :=
  ⟨allUnplaced c.rest, .start, c.stray.map SyntaxError.unplaced⟩

@[simp] theorem SyntaxError.unplaced_mk (pos : Pos) (fault : Fault) :
    SyntaxError.unplaced ⟨pos, fault⟩ = ⟨.start, fault⟩ := rfl

namespace Cursor

variable (c : Cursor)

@[simp] theorem rest_unplaced : c.unplaced.rest = allUnplaced c.rest := rfl

@[simp] theorem pos_unplaced : c.unplaced.pos = .start := by
  rcases c with ⟨_ | ⟨t, ts⟩, scope, stray⟩
  · rfl
  · exact Tree.pos_unplaced t

@[simp] theorem atEnd_unplaced : c.unplaced.atEnd = c.atEnd := isEmpty_allUnplaced c.rest

/-- Going on at other trees inside the same brackets. -/
@[simp] theorem unplaced_at (ts : List Tree) :
    ({ c.unplaced with rest := allUnplaced ts } : Cursor) =
      ({ c with rest := ts } : Cursor).unplaced := rfl

end Cursor

/-- What a reader gives. -/
abbrev Reading (α : Type) := Except SyntaxError (α × Cursor)

namespace Reading

variable {α β γ : Type}

/-- Goes on where reading went well. -/
def andThen (r : Reading α) (k : α → Cursor → Reading β) : Reading β :=
  match r with
  | .error e => .error e
  | .ok (a, c) => k a c

/-- Goes on where reading went well; a fault loses its place. -/
def unplacedThen (r : Reading α) (k : α → Cursor → Reading β) : Reading β :=
  match r with
  | .error e => .error e.unplaced
  | .ok (a, c) => k a c

/-- The same without places, which `f` takes out of what was read. -/
def unplacedBy (f : α → α) (r : Reading α) : Reading α :=
  r.unplacedThen fun a c => .ok (f a, c.unplaced)

/-- The same without places, when what was read has none. -/
def unplaced (r : Reading α) : Reading α := unplacedBy id r

section

variable (r : Reading α) (k : α → Cursor → Reading β) (f : α → α) (a : α) (c : Cursor)
  (e : SyntaxError)

@[simp] theorem andThen_ok : andThen (.ok (a, c)) k = k a c := rfl

@[simp] theorem andThen_error : andThen (.error e) k = .error e := rfl

@[simp] theorem unplacedThen_ok : unplacedThen (.ok (a, c)) k = k a c := rfl

@[simp] theorem unplacedThen_error : unplacedThen (.error e) k = .error e.unplaced := rfl

@[simp] theorem unplacedBy_id : unplacedBy id r = unplaced r := rfl

@[simp] theorem unplaced_ok : unplaced (.ok (a, c)) = .ok (a, c.unplaced) := rfl

@[simp] theorem unplaced_error : unplaced (.error e : Reading α) = .error e.unplaced := rfl

@[simp] theorem unplacedBy_ok : unplacedBy f (.ok (a, c)) = .ok (f a, c.unplaced) := rfl

@[simp] theorem unplacedBy_error : unplacedBy f (.error e) = .error e.unplaced := rfl

@[simp] theorem andThen_unplacedBy :
    andThen (unplacedBy f r) k = unplacedThen r fun a c => k (f a) c.unplaced := by
  rcases r with e | ⟨a, c⟩ <;> rfl

@[simp] theorem andThen_unplaced :
    andThen (unplaced r) k = unplacedThen r fun a c => k a c.unplaced := by
  rcases r with e | ⟨a, c⟩ <;> rfl

@[simp] theorem unplaced_andThen :
    unplaced (andThen r k) = unplacedThen r fun a c => unplaced (k a c) := by
  rcases r with e | ⟨a, c⟩ <;> rfl

@[simp] theorem unplacedThen_andThen (l : β → Cursor → Reading γ) :
    unplacedThen (andThen r k) l = unplacedThen r fun a c => unplacedThen (k a c) l := by
  rcases r with e | ⟨a, c⟩ <;> rfl

@[simp] theorem andThen_unplacedThen (l : β → Cursor → Reading γ) :
    andThen (unplacedThen r k) l = unplacedThen r fun a c => andThen (k a c) l := by
  rcases r with e | ⟨a, c⟩ <;> rfl

@[simp] theorem unplacedBy_andThen (f : β → β) :
    unplacedBy f (andThen r k) = unplacedThen r fun a c => unplacedBy f (k a c) := by
  rcases r with e | ⟨a, c⟩ <;> rfl

end

@[simp] theorem unplaced_ite (P : Prop) [Decidable P] (r s : Reading α) :
    unplaced (if P then r else s) = if P then unplaced r else unplaced s := apply_ite ..

@[simp] theorem unplacedBy_ite (f : α → α) (P : Prop) [Decidable P] (r s : Reading α) :
    unplacedBy f (if P then r else s) = if P then unplacedBy f r else unplacedBy f s := apply_ite ..

/-- What holds of both choices holds of the one that is made. -/
theorem forall_mem_ite {o o' : Option α} {P : Prop} [Decidable P] {Q : α → Prop}
    (h : ∀ a ∈ o, Q a) (h' : ∀ a ∈ o', Q a) : ∀ a ∈ (if P then o else o'), Q a := by
  split <;> assumption

/-- Two ways to go on from the same reading. -/
theorem unplacedThen_congr {r : Reading α} {k l : α → Cursor → Reading β}
    (h : ∀ a c, k a c = l a c) : unplacedThen r k = unplacedThen r l := by
  rw [funext₂ h]

end Reading

open Reading

/-! ## Readers -/

namespace Reader

variable {α β : Type} (c : Cursor)

@[simp] theorem bind_apply (p : Reader α) (k : α → Reader β) :
    (p >>= k) c = andThen (p c) k := by
  change Except.bind _ _ = _
  cases p c <;> rfl

@[simp] theorem map_apply (f : α → β) (p : Reader α) :
    (f <$> p) c = andThen (p c) fun a c => .ok (f a, c) := by
  change Except.bind _ _ = _
  cases p c <;> rfl

@[simp] theorem if_apply (P : Prop) [Decidable P] (p q : Reader α) :
    (if P then p else q : Reader α) c = if P then p c else q c := by
  split <;> rfl

@[simp] theorem pure_apply (a : α) : (pure a : Reader α) c = .ok (a, c) := rfl

@[simp] theorem throw_apply (e : SyntaxError) : (throw e : Reader α) c = .error e := rfl

@[simp] theorem get_apply : (get : Reader Cursor) c = .ok (c, c) := rfl

@[simp] theorem set_apply (d : Cursor) : (set d : Reader PUnit) c = .ok (⟨⟩, d) := rfl

@[simp] theorem modify_apply (f : Cursor → Cursor) :
    (modify f : Reader PUnit) c = .ok (⟨⟩, f c) := rfl

@[simp] theorem rest_apply : rest c = .ok (c.rest, c) := rfl

@[simp] theorem test_apply (p : List Tree → Bool) : test p c = .ok (p c.rest, c) := rfl

/-! ### Faults -/

@[simp] theorem fail_unplaced (fault : Bool → Fault) :
    (fail fault : Reader α) c.unplaced = unplaced ((fail fault : Reader α) c) := by
  simp [fail]

@[simp] theorem fail_unplacedBy (fault : Bool → Fault) (f : α → α) :
    unplacedBy f ((fail fault : Reader α) c) = unplaced ((fail fault : Reader α) c) := rfl

@[simp] theorem failExpected_unplaced (alternatives : List String) :
    (failExpected alternatives : Reader α) c.unplaced =
      unplaced ((failExpected alternatives : Reader α) c) :=
  fail_unplaced c _

@[simp] theorem failRule_unplaced (text : String) :
    (failRule text : Reader α) c.unplaced = unplaced ((failRule text : Reader α) c) :=
  fail_unplaced c _

@[simp] theorem failExpected_unplacedBy (alternatives : List String) (f : α → α) :
    unplacedBy f ((failExpected alternatives : Reader α) c) =
      unplaced ((failExpected alternatives : Reader α) c) := rfl

@[simp] theorem failRule_unplacedBy (text : String) (f : α → α) :
    unplacedBy f ((failRule text : Reader α) c) = unplaced ((failRule text : Reader α) c) := rfl

/-! ### Tokens -/

@[simp] theorem skip_unplaced (n : Nat) : skip n c.unplaced = unplaced (skip n c) := by
  simp [skip]

@[simp] theorem op_unplaced (text : String) : op text c.unplaced = unplaced (op text c) := by
  simp [op]

@[simp] theorem word_unplaced (text : String) : word text c.unplaced = unplaced (word text c) := by
  simp [word]

@[simp] theorem op?_unplaced (text : String) : op? text c.unplaced = unplaced (op? text c) := by
  simp [op?]

@[simp] theorem word?_unplaced (text : String) :
    word? text c.unplaced = unplaced (word? text c) := by
  simp [word?]

@[simp] theorem optWord_unplaced (text : String) :
    optWord text c.unplaced = unplaced (optWord text c) := by
  simp [optWord]

@[simp] theorem optOp_unplaced (text : String) :
    optOp text c.unplaced = unplaced (optOp text c) := by
  simp [optOp]

@[simp] theorem name_unplaced : name c.unplaced = unplaced (name c) := by
  rcases hrest : c.rest with _ | ⟨⟨⟨⟩, pos⟩ | _, ts⟩ <;> simp [name, hrest]

@[simp] theorem anyWord_unplaced : anyWord c.unplaced = unplaced (anyWord c) := by
  rcases hrest : c.rest with _ | ⟨⟨⟨⟩, pos⟩ | _, ts⟩ <;> simp [anyWord, hrest]

@[simp] theorem lifetime_unplaced : lifetime c.unplaced = unplaced (lifetime c) := by
  rcases hrest : c.rest with _ | ⟨⟨⟨⟩, pos⟩ | _, ts⟩ <;> simp [lifetime, hrest]

@[simp] theorem lifetime?_unplaced : lifetime? c.unplaced = unplaced (lifetime? c) := by
  simp [lifetime?]

@[simp] theorem literal_unplaced : literal c.unplaced = unplaced (literal c) := by
  rcases hrest : c.rest with _ | ⟨⟨⟨⟩, pos⟩ | _, ts⟩
  case cons.leaf.punct text joint =>
    by_cases hminus : text = "-"
    · subst hminus
      rcases ts with _ | ⟨⟨⟨⟩, pos⟩ | _, ts⟩ <;> simp [literal, hrest]
    · simp [literal, hrest, hminus]
  all_goals simp [literal, hrest]

@[simp] theorem index_unplaced (text : String) :
    index .start text c.unplaced = unplaced (index .start text c) := by
  unfold index
  dsimp only
  split
  · rfl
  · cases wholeNumber? text with
    | none => rfl
    | some n => by_cases hn : n < UInt32.size <;> simp [hn]

/-- The place of an index matters for faults only. -/
@[simp] theorem index_place (d : Cursor) (text : String) (k : Node → Cursor → Reading β) :
    unplacedThen (index d.pos text c) k = unplacedThen (index .start text c) k := by
  unfold index
  dsimp only
  split
  · rfl
  · cases wholeNumber? text with
    | none => rfl
    | some n => by_cases hn : n < UInt32.size <;> simp [hn]

@[simp] theorem unplaced_index_place (d : Cursor) (text : String) :
    unplaced (index d.pos text c) = unplaced (index .start text c) :=
  index_place c d text _

/-! ### Lists -/

@[simp] theorem mapM_unplaced {f : α → Reader β} (h : ∀ a c, f a c.unplaced = unplaced (f a c))
    (as : List α) : as.mapM f c.unplaced = unplaced (as.mapM f c) := by
  induction as generalizing c with
  | nil => rfl
  | cons a as ih => simp [List.mapM_cons, h, ih]

@[simp] theorem mapM_index_place (d : Cursor) (texts : List String)
    (k : List Node → Cursor → Reading β) :
    unplacedThen (texts.mapM (index d.pos) c) k = unplacedThen (texts.mapM (index .start) c) k := by
  induction texts generalizing c k with
  | nil => rfl
  | cons text texts ih => simp [List.mapM_cons, ih]

/-! ### Brackets and repetition -/

theorem within_group {d : Delim} {ts us : List Tree} {opened closed : Pos} (p : Reader α)
    (hrest : c.rest = .group d ts opened closed :: us) :
    within d p c = andThen (p ⟨ts, closed, c.stray⟩) fun a inside =>
      .ok (a, ⟨us, c.scope, inside.stray <|>
        inside.rest.head?.map fun t => ⟨t.pos, .leftover (some d)⟩⟩) := by
  simp only [within, bind_apply, get_apply, andThen_ok, hrest, if_true]
  cases p ⟨ts, closed, c.stray⟩ <;> rfl

theorem within_unplacedBy {p : Reader α} {f : α → α}
    (h : ∀ c, p c.unplaced = unplacedBy f (p c)) (d : Delim) :
    within d p c.unplaced = unplacedBy f (within d p c) := by
  rcases hrest : c.rest with _ | ⟨_ | ⟨d', ts, opened, closed⟩, us⟩
  case cons.group =>
    by_cases hd : d' = d
    · subst hd
      have hinside : p ⟨allUnplaced ts, .start, c.unplaced.stray⟩ = _ := h ⟨ts, closed, c.stray⟩
      have hunplaced : c.unplaced.rest =
          .group d' (allUnplaced ts) .start .start :: allUnplaced us := by
        rw [Cursor.rest_unplaced, hrest]
        rfl
      rw [within_group c p hrest, within_group c.unplaced p hunplaced, hinside,
        andThen_unplacedBy, unplacedBy_andThen]
      apply unplacedThen_congr
      intro a inside
      simp [Cursor.unplaced, Option.map_or, Function.comp_def]
    · simp [within, hrest, hd]
  all_goals simp [within, hrest]

@[simp] theorem within_unplaced {p : Reader α} (h : ∀ c, p c.unplaced = unplaced (p c))
    (d : Delim) :
    within d p c.unplaced = unplaced (within d p c) :=
  within_unplacedBy c h d

@[simp] theorem rawGroup_unplaced :
    rawGroup c.unplaced = unplacedBy (Prod.map id allUnplaced) (rawGroup c) := by
  rcases hrest : c.rest with _ | ⟨_ | _, us⟩ <;> simp [rawGroup, hrest]

@[simp] theorem takeAll_apply : takeAll c = .ok (c.rest, { c with rest := [] }) := rfl

@[simp] theorem within_takeAll_unplaced (d : Delim) :
    within d takeAll c.unplaced = unplacedBy allUnplaced (within d takeAll c) :=
  within_unplacedBy c (fun _ => rfl) d

theorem loop_unplacedBy {step : Reader (Option α)} {f : α → α}
    (h : ∀ c, step c.unplaced = unplacedBy (Option.map f) (step c)) (fuel : Nat) :
    loop step fuel c.unplaced = unplacedBy (List.map f) (loop step fuel c) := by
  induction fuel generalizing c with
  | zero => rfl
  | succ fuel ih =>
    simp only [loop, bind_apply, h, andThen_unplacedBy, unplacedBy_andThen]
    apply unplacedThen_congr
    rintro (_ | a) c
    · rfl
    · simp [ih]

theorem many_unplacedBy {step : Reader (Option α)} {f : α → α}
    (h : ∀ c, step c.unplaced = unplacedBy (Option.map f) (step c)) :
    many step c.unplaced = unplacedBy (List.map f) (many step c) := by
  simp [many, loop_unplacedBy _ h]

@[simp] theorem many_unplaced {step : Reader (Option α)}
    (h : ∀ c, step c.unplaced = unplaced (step c)) :
    many step c.unplaced = unplaced (many step c) := by
  have := many_unplacedBy (f := id) c (by simpa using h)
  simpa using this

theorem manyWhile_unplacedBy {go : List Tree → Bool} {item : Reader α} {f : α → α}
    (hgo : ∀ ts, go (allUnplaced ts) = go ts) (h : ∀ c, item c.unplaced = unplacedBy f (item c)) :
    manyWhile go item c.unplaced = unplacedBy (List.map f) (manyWhile go item c) := by
  apply many_unplacedBy
  intro c
  simp [hgo, h]

@[simp] theorem manyWhile_unplaced {go : List Tree → Bool} {item : Reader α}
    (hgo : ∀ ts, go (allUnplaced ts) = go ts) (h : ∀ c, item c.unplaced = unplaced (item c)) :
    manyWhile go item c.unplaced = unplaced (manyWhile go item c) := by
  have := manyWhile_unplacedBy (f := id) c hgo h
  simpa using this

theorem sepList_unplaced {stop : List Tree → Bool} {item : Reader α} {sep : Reader Unit}
    (hstop : ∀ ts, stop (allUnplaced ts) = stop ts)
    (hitem : ∀ c, item c.unplaced = unplaced (item c))
    (hsep : ∀ c, sep c.unplaced = unplaced (sep c)) (fuel : Nat) :
    sepList stop item sep fuel c.unplaced = unplaced (sepList stop item sep fuel c) := by
  induction fuel generalizing c with
  | zero => rfl
  | succ fuel ih => simp [sepList, hstop, hitem, hsep, ih]

@[simp] theorem separatedUntil_unplaced {stop : List Tree → Bool} {item : Reader α}
    (hstop : ∀ ts, stop (allUnplaced ts) = stop ts)
    (hitem : ∀ c, item c.unplaced = unplaced (item c))
    (sep : String) :
    separatedUntil stop item sep c.unplaced = unplaced (separatedUntil stop item sep c) := by
  simp [separatedUntil, sepList_unplaced _ hstop hitem]

@[simp] theorem commaList_unplaced {item : Reader α}
    (hitem : ∀ c, item c.unplaced = unplaced (item c)) :
    commaList item c.unplaced = unplaced (commaList item c) :=
  separatedUntil_unplaced c isEmpty_allUnplaced hitem ","

@[simp] theorem commaNodes_unplaced {item : Reader Node}
    (hitem : ∀ c, item c.unplaced = unplaced (item c)) :
    commaNodes item c.unplaced = unplaced (commaNodes item c) := by
  simp [commaNodes, hitem]

@[simp] theorem ahead?_unplaced {p : Reader α} (h : ∀ c, p c.unplaced = unplaced (p c)) :
    ahead? p c.unplaced = unplacedBy (Option.map (Prod.map id Cursor.unplaced)) (ahead? p c) := by
  simp only [ahead?, bind_apply, get_apply, andThen_ok, h]
  cases p c with
  | error e => rfl
  | ok r => rfl

@[simp] theorem takenSince_unplaced (before : List Tree) :
    takenSince (allUnplaced before) c.unplaced = unplaced (takenSince before c) := by
  simp [takenSince]

end Reader

end WrapperGen.Source
