import WrapperGen.Proofs.Unplaced.Readers
import WrapperGen.Source.Grammar.Types
/-!
# Types without places
-/

namespace WrapperGen.Source

open Tree Reading

mutual
/-- The item with its name on the first line, which only traits have a line of. -/
def Item.unplaced : Item → Item
  | .trait t => .trait { t with line := Pos.start.line }
  | .module n (some items) => .module n (some (Item.allUnplaced items))
  | i => i
def Item.allUnplaced : List Item → List Item
  | [] => []
  | i :: is => i.unplaced :: Item.allUnplaced is
end

namespace Item

@[simp] theorem unplaced_trait (t : Trait) :
    (trait t).unplaced = trait { t with line := Pos.start.line } := rfl

@[simp] theorem unplaced_module_none (name : String) :
    (module name none).unplaced = module name none := rfl

@[simp] theorem unplaced_module_some (name : String) (is : List Item) :
    (module name (some is)).unplaced = module name (some (allUnplaced is)) := rfl

@[simp] theorem unplaced_impl (i : Implementation) : (impl i).unplaced = impl i := rfl

@[simp] theorem unplaced_use (tree : UseTree) : (use tree).unplaced = use tree := rfl

@[simp] theorem unplaced_declaration (kind : DeclKind) (name : String) :
    (declaration kind name).unplaced = declaration kind name := rfl

@[simp] theorem unplaced_other : other.unplaced = other := rfl

theorem allUnplaced_eq (is : List Item) : allUnplaced is = is.map unplaced := by
  induction is with
  | nil => rfl
  | cons i is ih => rw [allUnplaced, ih, List.map_cons]

end Item

/-- A grammar that reads the same from trees without places. -/
class Grammar.IgnoresPlaces (g : Grammar) : Prop where
  ty : ∀ plus c, g.ty plus c.unplaced = unplaced (g.ty plus c)
  expr : ∀ struct c, g.expr struct c.unplaced = unplaced (g.expr struct c)
  unary : ∀ struct c, g.unary struct c.unplaced = unplaced (g.unary struct c)
  climb : ∀ lhs struct level c,
    g.climb lhs struct level c.unplaced = unplaced (g.climb lhs struct level c)
  early : ∀ c, g.early c.unplaced = unplaced (g.early c)
  pattern : ∀ c, g.pattern c.unplaced = unplaced (g.pattern c)
  statements : ∀ c, g.statements c.unplaced = unplaced (g.statements c)
  item : ∀ c, g.item c.unplaced = unplacedBy Item.unplaced (g.item c)

attribute [simp] Grammar.IgnoresPlaces.ty Grammar.IgnoresPlaces.expr Grammar.IgnoresPlaces.unary
  Grammar.IgnoresPlaces.climb Grammar.IgnoresPlaces.early Grammar.IgnoresPlaces.pattern
  Grammar.IgnoresPlaces.statements

class PathGrammar.IgnoresPlaces (g : PathGrammar) : Prop where
  path : ∀ style c, g.path style c.unplaced = unplaced (g.path style c)
  bound : ∀ cap const c, g.bound cap const c.unplaced = unplaced (g.bound cap const c)
  generics : ∀ c, g.generics c.unplaced = unplaced (g.generics c)

attribute [simp] PathGrammar.IgnoresPlaces.path PathGrammar.IgnoresPlaces.bound
  PathGrammar.IgnoresPlaces.generics

namespace Grammar

open Reader

variable (g : Grammar) [g.IgnoresPlaces] (c : Cursor)

/-! ## Attributes -/

@[simp] theorem attributePath_unplaced :
    attributePath c.unplaced = unplaced (attributePath c) := by
  simp [attributePath]

@[simp] theorem attributeBody_unplaced :
    g.attributeBody c.unplaced = unplaced (g.attributeBody c) := by
  simp [attributeBody]
  split
  · rfl
  · split
    · refine unplacedThen_congr fun eq c => unplacedThen_congr fun ahead c => ?_
      rcases ahead with _ | ⟨value, d⟩
      · simp
      · by_cases hend : d.rest = [] <;> simp [hend]
    · rfl

@[simp] theorem attributeGroup_unplaced :
    g.attributeGroup c.unplaced = unplaced (g.attributeGroup c) := by
  simp [attributeGroup]

@[simp] theorem outerAttribute_unplaced :
    g.outerAttribute c.unplaced = unplaced (g.outerAttribute c) := by
  simp [outerAttribute]

@[simp] theorem outerAttributes_unplaced :
    g.outerAttributes c.unplaced = unplaced (g.outerAttributes c) := by
  simp [outerAttributes]

@[simp] theorem innerAttributes_unplaced :
    g.innerAttributes c.unplaced = unplaced (g.innerAttributes c) := by
  simp [innerAttributes]

/-! ## Generic arguments -/

@[simp] theorem constArgument_unplaced :
    g.constArgument c.unplaced = unplaced (g.constArgument c) := by
  simp [constArgument]

@[simp] theorem captureParam_unplaced : captureParam c.unplaced = unplaced (captureParam c) := by
  simp [captureParam]

@[simp] theorem beginsBound_unplaced (allowConst : Bool) (ts : List Tree) :
    beginsBound allowConst (allUnplaced ts) = beginsBound allowConst ts := by
  simp [beginsBound]

@[simp] theorem bareParam_unplaced : g.bareParam c.unplaced = unplaced (g.bareParam c) := by
  simp [bareParam]

@[simp] theorem output_unplaced (plus : Bool) :
    g.output plus c.unplaced = unplaced (g.output plus c) := by
  simp [output]

@[simp] theorem parenArgs_unplaced : g.parenArgs c.unplaced = unplaced (g.parenArgs c) := by
  simp [parenArgs]

/-! ## Paths -/

section Inner

variable (inner : PathGrammar) [inner.IgnoresPlaces]

@[simp] theorem binder_unplaced : binder inner c.unplaced = unplaced (binder inner c) := by
  simp [binder]

@[simp] theorem binder?_unplaced : binder? inner c.unplaced = unplaced (binder? inner c) := by
  simp [binder?]

@[simp] theorem boundsUntil_unplaced :
    genericArg.boundsUntil inner c.unplaced = unplaced (genericArg.boundsUntil inner c) := by
  simp [genericArg.boundsUntil]

@[simp] theorem genericArg_unplaced :
    g.genericArg inner c.unplaced = unplaced (g.genericArg inner c) := by
  simp [genericArg]
  split
  · rfl
  · split
    · rfl
    · apply unplacedThen_congr
      intro ty c
      split <;> simp

@[simp] theorem argList_unplaced (fuel : Nat) :
    angleArgs.argList g inner fuel c.unplaced = unplaced (angleArgs.argList g inner fuel c) := by
  induction fuel generalizing c with
  | zero => rfl
  | succ fuel ih => simp [angleArgs.argList, ih]

@[simp] theorem angleArgs_unplaced :
    g.angleArgs inner c.unplaced = unplaced (g.angleArgs inner c) := by
  simp [angleArgs]

@[simp] theorem segment_unplaced (style : Bool) :
    g.segment inner style c.unplaced = unplaced (g.segment inner style c) := by
  simp [segment]

@[simp] theorem moreSegments_unplaced (style : Bool) :
    g.moreSegments inner style c.unplaced = unplaced (g.moreSegments inner style c) := by
  simp [moreSegments]

@[simp] theorem pathWith_unplaced (style : Bool) :
    g.pathWith inner style c.unplaced = unplaced (g.pathWith inner style c) := by
  simp [pathWith]

/-! ## Bounds -/

@[simp] theorem capture_unplaced : capture c.unplaced = unplaced (capture c) := by
  simp [capture]

@[simp] theorem traitBound_unplaced (allowConst : Bool) :
    g.traitBound inner allowConst c.unplaced = unplaced (g.traitBound inner allowConst c) := by
  simp [traitBound]

@[simp] theorem boundWith_unplaced (cap const : Bool) :
    g.boundWith inner cap const c.unplaced = unplaced (g.boundWith inner cap const c) := by
  simp [boundWith]
  split
  · rfl
  · split
    · rfl
    · split
      · apply unplacedThen_congr
        intro b d
        split <;> simp
      · apply unplacedThen_congr
        intro b d
        cases b <;> simp

@[simp] theorem go_unplaced {stop : List Tree → Bool}
    (hstop : ∀ ts, stop (allUnplaced ts) = stop ts) (fuel : Nat) :
    boundsWhile.go g inner stop fuel c.unplaced =
      unplaced (boundsWhile.go g inner stop fuel c) := by
  induction fuel generalizing c with
  | zero => rfl
  | succ fuel ih => simp [boundsWhile.go, hstop, ih]

@[simp] theorem boundsWhile_unplaced {stop : List Tree → Bool}
    (hstop : ∀ ts, stop (allUnplaced ts) = stop ts) :
    g.boundsWhile inner stop c.unplaced = unplaced (g.boundsWhile inner stop c) := by
  simp [boundsWhile, hstop]

@[simp] theorem lifetimesWhile_unplaced {stop : List Tree → Bool}
    (hstop : ∀ ts, stop (allUnplaced ts) = stop ts) (fuel : Nat) :
    lifetimesWhile stop fuel c.unplaced = unplaced (lifetimesWhile stop fuel c) := by
  induction fuel generalizing c with
  | zero => rfl
  | succ fuel ih => simp [lifetimesWhile, hstop, ih]

@[simp] theorem endsParam_unplaced (ts : List Tree) :
    endsParam (allUnplaced ts) = endsParam ts := by
  simp [endsParam]

@[simp] theorem lifetimeParam_unplaced (attrs : List Node) :
    lifetimeParam attrs c.unplaced = unplaced (lifetimeParam attrs c) := by
  simp [lifetimeParam]

@[simp] theorem typeParam_unplaced (attrs : List Node) {name : Reader String}
    (hname : ∀ c, name c.unplaced = unplaced (name c)) :
    g.typeParam inner attrs name c.unplaced = unplaced (g.typeParam inner attrs name c) := by
  simp [typeParam, hname]

@[simp] theorem constParam_unplaced (attrs : List Node) :
    g.constParam attrs c.unplaced = unplaced (g.constParam attrs c) := by
  simp [constParam]

@[simp] theorem genericParam_unplaced :
    g.genericParam inner c.unplaced = unplaced (g.genericParam inner c) := by
  simp [genericParam]

@[simp] theorem angleParams_unplaced :
    g.angleParams inner c.unplaced = unplaced (g.angleParams inner c) := by
  simp [angleParams]

end Inner

instance (depth : Nat) : (g.paths depth).IgnoresPlaces := by
  induction depth with
  | zero => constructor <;> simp [paths]
  | succ depth ih => constructor <;> simp [paths]

omit [g.IgnoresPlaces] in
@[simp] theorem inner_apply : g.inner c = .ok (g.paths (Tree.sizes c.rest + 1), c) := rfl

@[simp] theorem path_unplaced (style : Bool) :
    g.path style c.unplaced = unplaced (g.path style c) := by
  simp [path]

@[simp] theorem bound_unplaced (cap const : Bool) :
    g.bound cap const c.unplaced = unplaced (g.bound cap const c) := by
  simp [bound]

@[simp] theorem generics_unplaced : g.generics c.unplaced = unplaced (g.generics c) := by
  simp [generics]

@[simp] theorem binderHere?_unplaced : g.binderHere? c.unplaced = unplaced (g.binderHere? c) := by
  simp [binderHere?]

@[simp] theorem bounds_unplaced (plus cap const : Bool) (fuel : Nat) :
    g.bounds plus cap const fuel c.unplaced = unplaced (g.bounds plus cap const fuel c) := by
  induction fuel generalizing c with
  | zero => rfl
  | succ fuel ih => simp [bounds, ih]

@[simp] theorem boundsTo_unplaced {stop : List Tree → Bool}
    (hstop : ∀ ts, stop (allUnplaced ts) = stop ts) :
    g.boundsTo stop c.unplaced = unplaced (g.boundsTo stop c) := by
  simp [boundsTo, hstop]

@[simp] theorem plainPath_unplaced : plainPath c.unplaced = unplaced (plainPath c) := by
  simp [plainPath]

@[simp] theorem qualifiedPath_unplaced (style : Bool) :
    g.qualifiedPath style c.unplaced = unplaced (g.qualifiedPath style c) := by
  simp [qualifiedPath]

/-! ## Types -/

@[simp] theorem abi_unplaced : abi c.unplaced = unplaced (abi c) := by
  simp [abi]
  split
  · rfl
  · apply unplacedThen_congr
    intro kw c
    split
    · apply unplacedThen_congr
      intro text c
      split <;> simp
    · rfl

@[simp] theorem fnPointerParam_unplaced (attrs : List Node) (allowSelf : Bool) :
    g.fnPointerParam attrs allowSelf c.unplaced =
      unplaced (g.fnPointerParam attrs allowSelf c) := by
  simp [fnPointerParam]

@[simp] theorem fnPointerParams_unplaced (first : Bool) (fuel : Nat) :
    g.fnPointerParams first fuel c.unplaced = unplaced (g.fnPointerParams first fuel c) := by
  induction fuel generalizing c first with
  | zero => rfl
  | succ fuel ih => simp [fnPointerParams, ih]

@[simp] theorem fnPointer_unplaced (binder : Option Binder) :
    g.fnPointer binder c.unplaced = unplaced (g.fnPointer binder c) := by
  simp [fnPointer]

@[simp] theorem objectBounds_unplaced (plus : Bool) :
    g.objectBounds .start plus c.unplaced = unplaced (g.objectBounds .start plus c) := by
  simp [objectBounds]

omit [g.IgnoresPlaces] in
/-- The place of bounds matters for faults only. -/
@[simp] theorem objectBounds_place {β : Type} (d : Cursor) (plus : Bool)
    (k : List Bound × Bool → Cursor → Reading β) :
    unplacedThen (g.objectBounds d.pos plus c) k =
      unplacedThen (g.objectBounds .start plus c) k := by
  simp only [objectBounds, bind_apply, unplacedThen_andThen]
  refine unplacedThen_congr fun ts c => unplacedThen_congr fun bs c => ?_
  rw [if_apply, if_apply]
  split <;> rfl

@[simp] theorem parenContent_unplaced :
    g.parenContent c.unplaced = unplaced (g.parenContent c) := by
  simp [parenContent]
  split
  · rfl
  · split
    · rfl
    · split
      · apply unplacedThen_congr
        intro b c
        split <;> simp
      · rfl

@[simp] theorem plusBounds_unplaced : g.plusBounds c.unplaced = unplaced (g.plusBounds c) := by
  simp [plusBounds]

@[simp] theorem parenType_unplaced (plus : Bool) :
    g.parenType plus c.unplaced = unplaced (g.parenType plus c) := by
  simp [parenType]
  apply unplacedThen_congr
  intro content c
  cases content with
  | single t => cases hfirst : asFirstBound t <;> simp [hfirst]
  | _ => simp

@[simp] theorem bareBounds_unplaced (fuel : Nat) :
    g.bareBounds fuel c.unplaced = unplaced (g.bareBounds fuel c) := by
  induction fuel generalizing c with
  | zero => rfl
  | succ fuel ih => simp [bareBounds, ih]

@[simp] theorem pathType_unplaced (plus : Bool) (binder : Option Binder) :
    g.pathType plus binder c.unplaced = unplaced (g.pathType plus binder c) := by
  simp [pathType]
  apply unplacedThen_congr
  intro path c
  cases path <;> simp

@[simp] theorem typeWith_unplaced (plus : Bool) :
    g.typeWith plus c.unplaced = unplaced (g.typeWith plus c) := by
  simp [typeWith]

/-! ## Where clauses -/

@[simp] theorem endsPredicates_unplaced (ts : List Tree) :
    endsPredicates (allUnplaced ts) = endsPredicates ts := by
  simp [endsPredicates]

@[simp] theorem wherePredicate_unplaced :
    g.wherePredicate c.unplaced = unplaced (g.wherePredicate c) := by
  simp [wherePredicate]

@[simp] theorem predicateList_unplaced (fuel : Nat) :
    g.predicateList fuel c.unplaced = unplaced (g.predicateList fuel c) := by
  induction fuel generalizing c with
  | zero => rfl
  | succ fuel ih => simp [predicateList, ih]

@[simp] theorem whereClause_unplaced : g.whereClause c.unplaced = unplaced (g.whereClause c) := by
  simp [whereClause]

@[simp] theorem visibility_unplaced : visibility c.unplaced = unplaced (visibility c) := by
  simp [visibility]
  split
  · rfl
  · apply unplacedThen_congr
    intro kw c
    rcases hrest : c.rest with _ | ⟨_ | ⟨_ | _, inner, opened, closed⟩, ts⟩ <;> simp

end Grammar

end WrapperGen.Source
