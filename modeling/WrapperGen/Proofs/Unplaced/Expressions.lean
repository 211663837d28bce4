import WrapperGen.Proofs.Unplaced.Types
import WrapperGen.Source.Grammar.Expressions
/-!
# Patterns, expressions and statements without places
-/

namespace WrapperGen.Source.Grammar

open Tree Reading Reader

variable (g : Grammar) [g.IgnoresPlaces] (c : Cursor)

/-! ## Patterns -/

@[simp] theorem invocationTail_unplaced (p : Path) :
    invocationTail p c.unplaced = unplaced (invocationTail p c) := by
  simp [invocationTail]

@[simp] theorem atInvocation_unplaced (ts : List Tree) :
    atInvocation (allUnplaced ts) = atInvocation ts := by
  simp [atInvocation]

@[simp] theorem atAlternative_unplaced (ts : List Tree) :
    atAlternative (allUnplaced ts) = atAlternative ts := by
  simp [atAlternative]

@[simp] theorem patternWithBar_unplaced :
    g.patternWithBar c.unplaced = unplaced (g.patternWithBar c) := by
  simp [patternWithBar]

@[simp] theorem member_unplaced : member c.unplaced = unplaced (member c) := by
  simp [member]
  split
  · rfl
  · split
    · apply unplacedThen_congr
      intro n c
      split <;> simp
    · rfl

@[simp] theorem rangeOp_unplaced : rangeOp c.unplaced = unplaced (rangeOp c) := by
  simp [rangeOp]

@[simp] theorem patternRangeOp_unplaced :
    patternRangeOp c.unplaced = unplaced (patternRangeOp c) := by
  simp [patternRangeOp]

@[simp] theorem rangeBound_unplaced : g.rangeBound c.unplaced = unplaced (g.rangeBound c) := by
  simp [rangeBound]

@[simp] theorem rangeTail_unplaced (start : Node) :
    g.rangeTail start c.unplaced = unplaced (g.rangeTail start c) := by
  simp [rangeTail]

@[simp] theorem bindingPattern_unplaced :
    g.bindingPattern c.unplaced = unplaced (g.bindingPattern c) := by
  simp [bindingPattern]

@[simp] theorem fieldPattern_unplaced :
    g.fieldPattern c.unplaced = unplaced (g.fieldPattern c) := by
  simp [fieldPattern]

@[simp] theorem fieldPatterns_unplaced (fuel : Nat) :
    g.fieldPatterns fuel c.unplaced = unplaced (g.fieldPatterns fuel c) := by
  induction fuel generalizing c with
  | zero => rfl
  | succ fuel ih => simp [fieldPatterns, ih]

@[simp] theorem pathPattern_unplaced : g.pathPattern c.unplaced = unplaced (g.pathPattern c) := by
  simp [pathPattern]
  apply unplacedThen_congr
  intro path c
  cases path <;> simp

@[simp] theorem parenPattern_unplaced :
    g.parenPattern c.unplaced = unplaced (g.parenPattern c) := by
  simp [parenPattern]
  apply unplacedThen_congr
  rintro ⟨_ | ⟨p, _ | _⟩, _ | _⟩ c <;> simp

@[simp] theorem sliceElement_unplaced :
    g.sliceElement c.unplaced = unplaced (g.sliceElement c) := by
  simp [sliceElement]
  apply unplacedThen_congr
  intro p c
  split <;> simp

@[simp] theorem singlePattern_unplaced :
    g.singlePattern c.unplaced = unplaced (g.singlePattern c) := by
  simp [singlePattern]

/-! ## Operators -/

@[simp] theorem binaryOp?_unplaced (ts : List Tree) :
    binaryOp? (allUnplaced ts) = binaryOp? ts := by
  simp [binaryOp?]

@[simp] theorem nextLevel_unplaced (ts : List Tree) :
    nextLevel (allUnplaced ts) = nextLevel ts := by
  simp [nextLevel]

@[simp] theorem canBeginExpr_unplaced (ts : List Tree) :
    canBeginExpr (allUnplaced ts) = canBeginExpr ts := by
  simp [canBeginExpr]

@[simp] theorem opensGenerics_unplaced (ts : List Tree) :
    opensGenerics (allUnplaced ts) = opensGenerics ts := by
  simp [opensGenerics]

/-! ## Operands -/

@[simp] theorem braces_unplaced : g.braces c.unplaced = unplaced (g.braces c) := by
  simp [braces]

@[simp] theorem bodyBraces_unplaced : g.bodyBraces c.unplaced = unplaced (g.bodyBraces c) := by
  simp [bodyBraces]

@[simp] theorem label_unplaced : label c.unplaced = unplaced (label c) := by
  simp [label]

@[simp] theorem closureParam_unplaced :
    g.closureParam c.unplaced = unplaced (g.closureParam c) := by
  simp [closureParam]

@[simp] theorem closure_unplaced (struct : Bool) :
    g.closure struct c.unplaced = unplaced (g.closure struct c) := by
  simp [closure]

@[simp] theorem fieldInit_unplaced : g.fieldInit c.unplaced = unplaced (g.fieldInit c) := by
  simp [fieldInit]

@[simp] theorem fieldInits_unplaced (fuel : Nat) :
    g.fieldInits fuel c.unplaced = unplaced (g.fieldInits fuel c) := by
  induction fuel generalizing c with
  | zero => rfl
  | succ fuel ih => simp [fieldInits, ih]

@[simp] theorem pathExpr_unplaced (struct : Bool) :
    g.pathExpr struct c.unplaced = unplaced (g.pathExpr struct c) := by
  simp [pathExpr]
  apply unplacedThen_congr
  intro path c
  cases path <;> simp

@[simp] theorem parenExpr_unplaced : g.parenExpr c.unplaced = unplaced (g.parenExpr c) := by
  simp [parenExpr]
  apply unplacedThen_congr
  rintro ⟨_ | ⟨e, _ | _⟩, _ | _⟩ c <;> simp

@[simp] theorem arrayExpr_unplaced : g.arrayExpr c.unplaced = unplaced (g.arrayExpr c) := by
  simp [arrayExpr]

@[simp] theorem jumpValue_unplaced (struct : Bool) :
    g.jumpValue struct c.unplaced = unplaced (g.jumpValue struct c) := by
  simp [jumpValue]

@[simp] theorem breakExpr_unplaced (struct : Bool) :
    g.breakExpr struct c.unplaced = unplaced (g.breakExpr struct c) := by
  simp [breakExpr]

@[simp] theorem letCond_unplaced (struct : Bool) :
    g.letCond struct c.unplaced = unplaced (g.letCond struct c) := by
  simp [letCond]

@[simp] theorem ifExpr_unplaced (fuel : Nat) :
    g.ifExpr fuel c.unplaced = unplaced (g.ifExpr fuel c) := by
  induction fuel generalizing c with
  | zero => simp [ifExpr]
  | succ fuel ih => simp [ifExpr, ih]

@[simp] theorem forLoop_unplaced (label : Node) :
    g.forLoop label c.unplaced = unplaced (g.forLoop label c) := by
  simp [forLoop]

@[simp] theorem whileLoop_unplaced (label : Node) :
    g.whileLoop label c.unplaced = unplaced (g.whileLoop label c) := by
  simp [whileLoop]

@[simp] theorem loopExpr_unplaced (label : Node) :
    g.loopExpr label c.unplaced = unplaced (g.loopExpr label c) := by
  simp [loopExpr]

@[simp] theorem blockExpr_unplaced (label : Node) :
    g.blockExpr label c.unplaced = unplaced (g.blockExpr label c) := by
  simp [blockExpr]

@[simp] theorem keywordBlock_unplaced (form : Form) (keyword : String) :
    g.keywordBlock form keyword c.unplaced = unplaced (g.keywordBlock form keyword c) := by
  simp [keywordBlock]

@[simp] theorem arm_unplaced : g.arm c.unplaced = unplaced (g.arm c) := by
  simp [arm]

@[simp] theorem matchExpr_unplaced : g.matchExpr c.unplaced = unplaced (g.matchExpr c) := by
  simp [matchExpr]

@[simp] theorem labeled_unplaced : g.labeled c.unplaced = unplaced (g.labeled c) := by
  simp [labeled]

@[simp] theorem endsRange_unplaced (struct : Bool) (ts : List Tree) :
    endsRange struct (allUnplaced ts) = endsRange struct ts := by
  simp [endsRange]

/-! ## Operators after operands -/

section Unary

variable {unary : Bool → Reader Node}

@[simp] theorem extend_unplaced (struct : Bool) (level : Nat) (rhs : Node) (fuel : Nat) :
    rightOperand.extend g struct level rhs fuel c.unplaced =
      unplaced (rightOperand.extend g struct level rhs fuel c) := by
  induction fuel generalizing c rhs with
  | zero => rfl
  | succ fuel ih => simp [rightOperand.extend, ih]

@[simp] theorem rightOperand_unplaced (hunary : ∀ b c, unary b c.unplaced = unplaced (unary b c))
    (struct : Bool) (level : Nat) :
    g.rightOperand unary struct level c.unplaced =
      unplaced (g.rightOperand unary struct level c) := by
  simp [rightOperand, hunary]

@[simp] theorem rangeEnd_unplaced (hunary : ∀ b c, unary b c.unplaced = unplaced (unary b c))
    (struct : Bool) (limits : Node) :
    g.rangeEnd unary struct limits c.unplaced = unplaced (g.rangeEnd unary struct limits c) := by
  simp [rangeEnd, hunary]

@[simp] theorem atom_unplaced (hunary : ∀ b c, unary b c.unplaced = unplaced (unary b c))
    (struct : Bool) : g.atom unary struct c.unplaced = unplaced (g.atom unary struct c) := by
  simp [atom, hunary]

end Unary

@[simp] theorem trailers_unplaced (fuel : Nat) (e : Node) :
    g.trailers fuel e c.unplaced = unplaced (g.trailers fuel e c) := by
  induction fuel generalizing c e with
  | zero => rfl
  | succ fuel ih =>
    simp [trailers, ih]
    -- only what follows a dot is looked at tree by tree
    refine ite_congr rfl (fun _ => rfl) fun _ => ite_congr rfl (fun _ => ?_) fun _ => rfl
    apply unplacedThen_congr
    intro dot c
    rcases hrest : c.rest with _ | ⟨⟨_ | _ | text | _, pos⟩ | _, ts⟩ <;> simp [ih]

@[simp] theorem unaryWith_unplaced (struct : Bool) :
    g.unaryWith struct c.unplaced = unplaced (g.unaryWith struct c) := by
  simp [unaryWith]

@[simp] theorem checkCast_unplaced : checkCast c.unplaced = unplaced (checkCast c) := by
  simp [checkCast]

@[simp] theorem climbWith_unplaced (struct : Bool) (base fuel : Nat) (lhs : Node) :
    g.climbWith struct base fuel lhs c.unplaced =
      unplaced (g.climbWith struct base fuel lhs c) := by
  induction fuel generalizing c lhs with
  | zero => rfl
  | succ fuel ih =>
    simp [climbWith]
    split
    · rfl
    · cases hop : binaryOp? c.rest <;> simp [ih]

@[simp] theorem climbHere_unplaced (lhs : Node) (struct : Bool) (base : Nat) :
    g.climbHere lhs struct base c.unplaced = unplaced (g.climbHere lhs struct base c) := by
  simp [climbHere]

@[simp] theorem exprWith_unplaced (struct : Bool) :
    g.exprWith struct c.unplaced = unplaced (g.exprWith struct c) := by
  simp [exprWith]

/-! ## Statements -/

@[simp] theorem earlyWith_unplaced : g.earlyWith c.unplaced = unplaced (g.earlyWith c) := by
  simp [earlyWith]
  refine unplacedThen_congr fun attrs c => ?_
  generalize hchosen : (ite (peekWord "if" c.rest = true) _ _ : Option (Reader Node)) = chosen
  have hall : ∀ p ∈ chosen, ∀ c : Cursor, p c.unplaced = unplaced (p c) := by
    rw [← hchosen]
    repeat' apply forall_mem_ite
    all_goals simp
  cases chosen with
  | none => simp
  | some p => simp [hall p rfl]

@[simp] theorem letStatement_unplaced (attrs : List Attribute) :
    g.letStatement attrs c.unplaced = unplaced (g.letStatement attrs c) := by
  simp [letStatement]

@[simp] theorem beginsItem_unplaced (ts : List Tree) :
    beginsItem (allUnplaced ts) = beginsItem ts := by
  simp [beginsItem]

@[simp] theorem statement_unplaced : g.statement c.unplaced = unplaced (g.statement c) := by
  have hafter (named : Option (Path × Cursor)) :
      (named.map ((fun r => r.2.rest) ∘ Prod.map id Cursor.unplaced)).getD [] =
        allUnplaced ((named.map fun r => r.2.rest).getD []) := by
    cases named <;> rfl
  simp [statement, hafter, IgnoresPlaces.item]
  refine unplacedThen_congr fun attrs c => unplacedThen_congr fun named c => ?_
  split
  · rfl
  · split
    · rfl
    · split
      · rfl
      · refine unplacedThen_congr fun e c => unplacedThen_congr fun semi c => ?_
        generalize (e.withAttributes attrs).bare = bare
        split <;> simp

@[simp] theorem statementsWith_unplaced :
    g.statementsWith c.unplaced = unplaced (g.statementsWith c) := by
  simp [statementsWith]

end WrapperGen.Source.Grammar
