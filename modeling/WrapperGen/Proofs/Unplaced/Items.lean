import WrapperGen.Proofs.Unplaced.Expressions
import WrapperGen.Source.Parse
/-!
# Items without places

`File.reader_unplaced`: what a file reads as does not depend on the places of its tokens, but for
the lines of its traits and the places of faults.
-/

namespace WrapperGen.Source

open Tree Reading Reader

namespace Grammar

variable (g : Grammar) [g.IgnoresPlaces] (c : Cursor)

@[simp] theorem beginsPath_unplaced (ts : List Tree) :
    beginsPath (allUnplaced ts) = beginsPath ts := by
  simp [beginsPath]

/-! ## Functions -/

@[simp] theorem atSignature_unplaced (safe : Bool) (ts : List Tree) :
    atSignature safe (allUnplaced ts) = atSignature safe ts := by
  simp only [atSignature, peekWord_unplaced, peekTextLit_unplaced, drop_allUnplaced,
    ← apply_ite allUnplaced]

@[simp] theorem receiver_unplaced : g.receiver c.unplaced = unplaced (g.receiver c) := by
  simp [receiver]

@[simp] theorem fnInput_unplaced (attrs : List Attribute) :
    g.fnInput attrs c.unplaced = unplaced (g.fnInput attrs c) := by
  simp [fnInput]
  apply unplacedThen_congr
  rintro (_ | ⟨r, d⟩) c <;> simp

@[simp] theorem selfPos_unplaced (ts : List Tree) : selfPos (allUnplaced ts) = .start := by
  unfold selfPos
  cases hfound : (allUnplaced ts).find? fun t => peekWord "self" [t] with
  | none => rfl
  | some t =>
    have hmem := List.mem_of_find?_eq_some hfound
    rw [allUnplaced_eq] at hmem
    obtain ⟨t, -, rfl⟩ := List.mem_map.1 hmem
    exact t.pos_unplaced

@[simp] theorem fnInputs_unplaced (first seen : Bool) (fuel : Nat) :
    g.fnInputs first seen fuel c.unplaced = unplaced (g.fnInputs first seen fuel c) := by
  induction fuel generalizing c first seen with
  | zero => rfl
  | succ fuel ih =>
    simp [fnInputs]
    split
    · rfl
    · apply unplacedThen_congr
      intro attrs c
      split
      · rfl
      · apply unplacedThen_congr
        rintro (input | variadic) c
        · cases input <;> simp [ih]
        · rfl

@[simp] theorem signature_unplaced (safe : Bool) :
    g.signature safe c.unplaced = unplaced (g.signature safe c) := by
  simp [signature]

@[simp] theorem functionBody_unplaced :
    g.functionBody c.unplaced = unplaced (g.functionBody c) := by
  simp [functionBody]

/-! ## Bounds and definitions of types -/

@[simp] theorem boundsUpTo_unplaced {stop : List Tree → Bool}
    (hstop : ∀ ts, stop (allUnplaced ts) = stop ts) (fuel : Nat) :
    g.boundsUntil stop fuel c.unplaced = unplaced (g.boundsUntil stop fuel c) := by
  induction fuel generalizing c with
  | zero => rfl
  | succ fuel ih => simp [boundsUntil, hstop, ih]

@[simp] theorem boundList_unplaced {stop : List Tree → Bool}
    (hstop : ∀ ts, stop (allUnplaced ts) = stop ts) :
    g.boundList stop c.unplaced = unplaced (g.boundList stop c) := by
  simp [boundList, hstop]

@[simp] theorem typeItem_unplaced (allowDefault clauseFirst : Bool) :
    g.typeItem allowDefault clauseFirst c.unplaced =
      unplaced (g.typeItem allowDefault clauseFirst c) := by
  simp [typeItem]

@[simp] theorem constantRest_unplaced :
    g.constantRest c.unplaced = unplaced (g.constantRest c) := by
  simp [constantRest]

@[simp] theorem constantName_unplaced : constantName c.unplaced = unplaced (constantName c) := by
  simp [constantName]

@[simp] theorem itemInvocation_unplaced (named : Bool) :
    g.itemInvocation named c.unplaced = unplaced (g.itemInvocation named c) := by
  simp [itemInvocation]

/-! ## Members -/

@[simp] theorem traitMethod_unplaced (attrs : List Attribute) :
    g.traitMethod attrs c.unplaced = unplaced (g.traitMethod attrs c) := by
  simp [traitMethod]

@[simp] theorem traitMember_unplaced : g.traitMember c.unplaced = unplaced (g.traitMember c) := by
  simp [traitMember]

@[simp] theorem implMember_unplaced : g.implMember c.unplaced = unplaced (g.implMember c) := by
  simp [implMember]

@[simp] theorem foreignMember_unplaced :
    g.foreignMember c.unplaced = unplaced (g.foreignMember c) := by
  simp [foreignMember]

/-! ## Fields -/

@[simp] theorem namedField_unplaced : g.namedField c.unplaced = unplaced (g.namedField c) := by
  simp [namedField]

@[simp] theorem namedFields_unplaced : g.namedFields c.unplaced = unplaced (g.namedFields c) := by
  simp [namedFields]

@[simp] theorem tupleFields_unplaced : g.tupleFields c.unplaced = unplaced (g.tupleFields c) := by
  simp [tupleFields]

@[simp] theorem variant_unplaced : g.variant c.unplaced = unplaced (g.variant c) := by
  simp [variant]

@[simp] theorem structBody_unplaced : g.structBody c.unplaced = unplaced (g.structBody c) := by
  simp [structBody]

/-! ## Imports -/

@[simp] theorem rename_unplaced : rename c.unplaced = unplaced (rename c) := by
  simp [rename]

@[simp] theorem useTree_unplaced (depth : Nat) (allowRoot : Bool) :
    useTree depth allowRoot c.unplaced = unplaced (useTree depth allowRoot c) := by
  induction depth generalizing c allowRoot with
  | zero => simp [useTree]
  | succ depth ih => simp [useTree, ih]

/-! ## Traits and implementations -/

theorem traitRest_unplaced (attrs : List Attribute) (vis : Visibility) (unchecked auto : Bool)
    (n : String) (line : Nat) (generics : Generics) :
    unplacedBy Item.unplaced (g.traitRest attrs vis unchecked auto n line generics c) =
      g.traitRest attrs vis unchecked auto n Pos.start.line generics c.unplaced := by
  simp [traitRest]

theorem traitItem_unplaced (attrs : List Attribute) :
    g.traitItem attrs c.unplaced = unplacedBy Item.unplaced (g.traitItem attrs c) := by
  simp [traitItem, traitRest_unplaced]

theorem traitOrAlias_unplaced (attrs : List Attribute) :
    g.traitOrAlias attrs c.unplaced = unplacedBy Item.unplaced (g.traitOrAlias attrs c) := by
  simp [traitOrAlias, traitRest_unplaced]

theorem implItem_unplaced (attrs : List Attribute) :
    g.implItem attrs c.unplaced = unplacedBy Item.unplaced (g.implItem attrs c) := by
  simp [implItem]

/-! ## Items -/

theorem items_unplaced :
    manyWhile (fun ts => !ts.isEmpty) g.item c.unplaced =
      unplacedBy Item.allUnplaced (manyWhile (fun ts => !ts.isEmpty) g.item c) := by
  rw [funext Item.allUnplaced_eq]
  exact manyWhile_unplacedBy c (by simp) IgnoresPlaces.item

theorem moduleItem_unplaced :
    g.moduleItem c.unplaced = unplacedBy Item.unplaced (g.moduleItem c) := by
  have hcontent (c : Cursor) :
      within .brace (do
        let _ ← g.innerAttributes
        manyWhile (fun ts => !ts.isEmpty) g.item) c.unplaced =
      unplacedBy Item.allUnplaced (within .brace (do
        let _ ← g.innerAttributes
        manyWhile (fun ts => !ts.isEmpty) g.item) c) := by
    apply within_unplacedBy
    intro c
    simp [items_unplaced]
  simp [moduleItem, hcontent]

theorem foreignModule_unplaced :
    g.foreignModule c.unplaced = unplacedBy Item.unplaced (g.foreignModule c) := by
  simp [foreignModule]

theorem externItem_unplaced :
    g.externItem c.unplaced = unplacedBy Item.unplaced (g.externItem c) := by
  simp [externItem, foreignModule_unplaced]

theorem staticItem_unplaced :
    g.staticItem c.unplaced = unplacedBy Item.unplaced (g.staticItem c) := by
  simp [staticItem]

theorem definitionItem_unplaced :
    definitionItem c.unplaced = unplacedBy Item.unplaced (definitionItem c) := by
  simp [definitionItem]

theorem itemWith_unplaced : g.itemWith c.unplaced = unplacedBy Item.unplaced (g.itemWith c) := by
  have himport (tree : Option UseTree) :
      ((tree.map Item.use).getD .other).unplaced = (tree.map Item.use).getD .other := by
    cases tree <;> rfl
  simp [itemWith, externItem_unplaced, staticItem_unplaced, traitItem_unplaced, implItem_unplaced,
    foreignModule_unplaced, moduleItem_unplaced, traitOrAlias_unplaced, definitionItem_unplaced,
    himport, apply_ite Item.unplaced]

/-! ## Grammars -/

instance (depth : Nat) : (ofDepth depth).IgnoresPlaces := by
  induction depth with
  | zero => constructor <;> simp [ofDepth]
  | succ depth ih => constructor <;> simp [ofDepth, itemWith_unplaced]

@[simp] theorem forTrees_unplaced (ts : List Tree) : forTrees (allUnplaced ts) = forTrees ts := by
  simp [forTrees]

instance (ts : List Tree) : (forTrees ts).IgnoresPlaces :=
  inferInstanceAs (ofDepth _).IgnoresPlaces

end Grammar

/-! ## Whole phrases -/

/-- What is read of a whole text, without places, which `f` takes out of it. -/
def unplacedResult {α : Type} (f : α → α) : Except SyntaxError α → Except SyntaxError α
  | .error e => .error e.unplaced
  | .ok a => .ok (f a)

theorem Reader.run_unplaced {α : Type} {p : Reader α} {f : α → α}
    (h : ∀ c, p c.unplaced = unplacedBy f (p c)) (ts : List Tree) :
    p.run (allUnplaced ts) = unplacedResult f (p.run ts) := by
  have hstart : p ⟨allUnplaced ts, .start, none⟩ = _ := h ⟨ts, .start, none⟩
  unfold Reader.run
  rw [hstart]
  cases p ⟨ts, .start, none⟩ with
  | error e => rfl
  | ok r =>
    obtain ⟨a, ⟨rest, scope, stray⟩⟩ := r
    cases stray with
    | some e => rfl
    | none => cases rest <;> simp [unplacedResult, Cursor.unplaced]

/-- Places do not matter for what a phrase is read as, if they do not for its reader. -/
theorem readTrees_unplaced {α : Type} {p : Grammar → Reader α} {f : α → α}
    (h : ∀ (g : Grammar) [g.IgnoresPlaces] (c : Cursor), p g c.unplaced = unplacedBy f (p g c))
    (ts : List Tree) : readTrees p (allUnplaced ts) = unplacedResult f (readTrees p ts) := by
  unfold readTrees
  rw [Grammar.forTrees_unplaced]
  exact Reader.run_unplaced (h _) ts

/-- The file without the lines of its traits. -/
def File.unplaced (f : File) : File := ⟨Item.allUnplaced f.items⟩

theorem File.reader_unplaced (g : Grammar) [g.IgnoresPlaces] (c : Cursor) :
    File.reader g c.unplaced = unplacedBy File.unplaced (File.reader g c) := by
  simp [File.reader, Grammar.items_unplaced, File.unplaced]

end WrapperGen.Source
