import WrapperGen.Layout.Items
/-!
# Pieces that can be written

`Writable`: no piece, at any depth, stands for a phrase without a layout. Putting pieces together
keeps that, and tokens and comments always have it; the lemmas here say so for each way to make
pieces, so that `simp` reduces a layout to the layouts of its parts.
-/

namespace WrapperGen.Layout

open Source

def Writable (ps : List Piece) : Prop := anyUnwritable? ps = none

def AllWritable (xs : List (List Piece)) : Prop := ∀ x ∈ xs, Writable x

/-! ## Lists of pieces -/

@[simp] theorem writable_nil : Writable [] := rfl

theorem writable_cons {p : Piece} {ps : List Piece} :
    Writable (p :: ps) ↔ p.unwritable? = none ∧ Writable ps := by
  rw [Writable, anyUnwritable?]
  cases p.unwritable? <;> simp [Writable]

@[simp] theorem writable_brk {b : Break} {ps : List Piece} :
    Writable (.brk b :: ps) ↔ Writable ps := writable_cons.trans (and_iff_right rfl)

@[simp] theorem writable_append {ps qs : List Piece} :
    Writable (ps ++ qs) ↔ Writable ps ∧ Writable qs := by
  induction ps with
  | nil => simp
  | cons p ps ih => rw [List.cons_append, writable_cons, writable_cons, ih, and_assoc]

@[simp] theorem allWritable_nil : AllWritable [] := fun _ hx => absurd hx List.not_mem_nil

@[simp] theorem allWritable_cons {x : List Piece} {xs : List (List Piece)} :
    AllWritable (x :: xs) ↔ Writable x ∧ AllWritable xs := List.forall_mem_cons

theorem AllWritable.subset {xs ys : List (List Piece)} (hxs : AllWritable xs) (hys : ys ⊆ xs) :
    AllWritable ys := fun y hy => hxs y (hys hy)

@[simp] theorem writable_flatten {xs : List (List Piece)} :
    Writable xs.flatten ↔ AllWritable xs := by
  induction xs with
  | nil => simp
  | cons x xs ih => simp [ih]

@[simp] theorem writable_flatMap {α : Type} {f : α → List Piece} {xs : List α} :
    Writable (xs.flatMap f) ↔ ∀ x ∈ xs, Writable (f x) := by
  induction xs with
  | nil => simp
  | cons x xs ih => simp [ih]

@[simp] theorem writable_ite {c : Prop} [Decidable c] {ps qs : List Piece} :
    Writable (if c then ps else qs) ↔ if c then Writable ps else Writable qs := by
  split <;> rfl

theorem writable_getD {o : Option (List Piece)} {ps : List Piece} (ho : AllWritable o.toList)
    (hps : Writable ps) : Writable (o.getD ps) := by
  cases o with
  | none => exact hps
  | some qs => exact ho qs (.head _)

/-! ## Single pieces -/

@[simp] theorem writable_text (s : String) : Writable (text s) := rfl
@[simp] theorem writable_strut : Writable [.strut] := rfl
@[simp] theorem writable_zeroBreak : Writable zeroBreak := rfl
@[simp] theorem writable_space : Writable space := rfl
@[simp] theorem writable_hardBreak : Writable hardBreak := rfl
@[simp] theorem writable_neverBreak : Writable neverBreak := rfl
@[simp] theorem writable_hardBreakIfNonempty : Writable hardBreakIfNonempty := rfl
@[simp] theorem writable_spaceIfNonempty : Writable spaceIfNonempty := rfl

/-! ## Boxes -/

theorem writable_inner {offset : Int} {consistent : Bool} {ps : List Piece} :
    Writable [.box offset consistent ps] ↔ Writable ps := by
  rw [writable_cons, Piece.unwritable?]
  exact and_iff_left rfl

@[simp] theorem writable_box {offset : Int} {consistent : Bool} {ps : List Piece} :
    Writable (box offset consistent ps) ↔ Writable ps := by
  have hps : ps = ps.reverse.reverse := ps.reverse_reverse.symm
  unfold box
  split
  · rename_i b hb
    rw [hps, hb]
    simp
  · rename_i b others _ hb
    have hsplit : ps = others.reverse ++ [.brk b] := by rw [hps, hb, List.reverse_cons]
    split
    · rw [writable_inner, hsplit, writable_append]
      simp
    · exact writable_inner
  · exact writable_inner

@[simp] theorem writable_cbox {offset : Int} {ps : List Piece} :
    Writable (cbox offset ps) ↔ Writable ps := writable_box

@[simp] theorem writable_ibox {offset : Int} {ps : List Piece} :
    Writable (ibox offset ps) ↔ Writable ps := writable_box

@[simp] theorem writable_dedent {ps : List Piece} : Writable (dedent ps) ↔ Writable ps := by
  fun_induction dedent ps with
  | case1 => rfl
  | case2 b => simp
  | case3 p ps _ ih => rw [writable_cons, writable_cons, ih]

/-! ## Lists with separators -/

@[simp] theorem writable_commas {xs : List (List Piece)} :
    Writable (commas xs) ↔ AllWritable xs := by
  fun_induction commas xs <;> simp_all

@[simp] theorem writable_commaBox {offset : Int} {xs : List (List Piece)} :
    Writable (commaBox offset xs) ↔ AllWritable xs := by simp [commaBox]

@[simp] theorem writable_between {sep : String} {xs : List (List Piece)} :
    Writable (between sep xs) ↔ AllWritable xs := by
  fun_induction between sep xs <;> simp_all

@[simp] theorem writable_plainListBox {xs : List (List Piece)} :
    Writable (plainListBox xs) ↔ AllWritable xs := by
  have hgo : Writable (plainListBox.go xs) ↔ AllWritable xs := by
    fun_induction plainListBox.go xs <;> simp_all
  simp [plainListBox, hgo]

@[simp] theorem writable_tupleBox {xs : List (List Piece)} :
    Writable (tupleBox xs) ↔ AllWritable xs := by
  unfold tupleBox
  split <;> simp

@[simp] theorem writable_boundList {xs : List (List Piece)} :
    Writable (boundList xs) ↔ AllWritable xs := by
  unfold boundList
  split <;> simp [AllWritable]

@[simp] theorem writable_closureParams {xs : List (List Piece)} :
    Writable (closureParams xs) ↔ AllWritable xs := by
  unfold closureParams
  split <;> simp [AllWritable]

@[simp] theorem writable_alternatives {consistent : Bool} {xs : List (List Piece)} :
    Writable (alternatives consistent xs) ↔ AllWritable xs := by
  unfold alternatives
  split <;> simp [AllWritable]

@[simp] theorem writable_callArgs {args : List Node} {xs : List (List Piece)} :
    Writable (callArgs args xs) ↔ AllWritable xs := by
  unfold callArgs
  split <;> simp

theorem writable_fieldsBox {head : List Piece} {xs : List (List Piece)}
    (hhead : Writable head) (hxs : AllWritable xs) : Writable (fieldsBox head xs none) := by
  have hgo : Writable (fieldsBox.go none xs) := by
    fun_induction fieldsBox.go none xs <;> simp_all
  simp [fieldsBox, hhead, hgo]

theorem writable_projection {self : List Piece} {position : Nat} {leading : Bool}
    {inTrait after : List (List Piece)} (hself : Writable self)
    (hin : AllWritable inTrait) (hafter : AllWritable after) :
    Writable (projectionPieces self position leading inTrait after) := by
  have htake := hin.subset (inTrait.take_subset position)
  have hdrop := hafter.subset (after.drop_subset position)
  unfold projectionPieces
  rw [writable_append, writable_flatMap]
  refine ⟨?_, fun x hx => by simpa using hdrop x hx⟩
  split <;> simp [hself, htake]

/-! ## Parts of expressions -/

@[simp] theorem writable_optional (keyword : String) (n : Node) :
    Writable (optional keyword n) := by simp [optional]

@[simp] theorem writable_bracedLines {ps : List Piece} :
    Writable (bracedLines ps) ↔ Writable ps := by simp [bracedLines]

@[simp] theorem writable_beforeBrace {n : Node} {ps : List Piece} :
    Writable (beforeBrace n ps) ↔ Writable ps := by simp [beforeBrace]

@[simp] theorem writable_statementLine {ps : List Piece} {semicolon : Bool} :
    Writable (statementLine ps semicolon) ↔ Writable ps := by simp [statementLine]

@[simp] theorem writable_bracedValue {n : Node} {ps : List Piece} :
    Writable (bracedValue n ps) ↔ Writable ps := by simp [bracedValue]

@[simp] theorem writable_chainBreak (place : Place) (n : Node) :
    Writable (chainBreak place n) := by simp [chainBreak]

@[simp] theorem writable_finish {place : Place} {n : Node} {ps : List Piece} :
    Writable (finish place n ps) ↔ Writable ps := by
  unfold finish
  split <;> simp

@[simp] theorem writable_finishChain {place : Place} {n : Node} {ps : List Piece} :
    Writable (finishChain place n ps) ↔ Writable ps := by
  simp [finishChain]

theorem writable_smallBlock {alone : Option (List Piece)} {lines : List Piece}
    (halone : AllWritable alone.toList) (hlines : Writable lines) :
    Writable (smallBlock alone lines) := by
  unfold smallBlock
  cases alone with
  | none => simp [hlines]
  | some ps => simp [halone ps (.head _)]

/-! ## Tokens -/

mutual
theorem writable_tokenPieces : ∀ n : Node, Writable (tokenPieces n)
  | .token (.ident _) | .token (.lifetime _) | .token (.literal _) | .token (.punct _ _) => by
    simp [tokenPieces]
  | .group .paren ns => by simp [tokenPieces, writable_tokensFrom true .start ns]
  | .group .bracket ns => by simp [tokenPieces, writable_tokensFrom true .start ns]
  | .group .brace ns => by simp [tokenPieces, writable_tokensFrom true .start ns]
  | .type _ | .path _ | .projection .. | .args _ | .binder _ | .form .. => by simp [tokenPieces]
theorem writable_tokensFrom (joint : Bool) (trail : Trail) :
    ∀ ns : List Node, Writable (tokensFrom joint trail ns)
  | [] => by simp [tokensFrom]
  | n :: ns => by
    simp [tokensFrom, writable_tokenPieces n, writable_tokensFrom (isJoint n) _ ns]
end

mutual
theorem writable_attrToken (trail : AttrTrail) (isLast : Bool) :
    ∀ n : Node, Writable (attrToken trail isLast n).1
  | .token (.punct _ _) => by
    unfold attrToken
    split
    · split <;> simp
    · split <;> simp
  | .token (.ident _) | .token (.lifetime _) | .token (.literal _) => by
    simp [attrToken, writable_tokenPieces]
  | .group .paren ns => by simp [attrToken, writable_attrTokens .punct ns]
  | .group .bracket ns => by simp [attrToken, writable_attrTokens .punct ns]
  | .group .brace ns => by simp [attrToken, writable_attrTokens .punct ns]
  | .type _ | .path _ | .projection .. | .args _ | .binder _ | .form .. => by simp [attrToken]
theorem writable_attrTokens (trail : AttrTrail) :
    ∀ ns : List Node, Writable (attrTokens trail ns).1
  | [] => by simp [attrTokens]
  | n :: ns => by
    simp [attrTokens, writable_attrToken trail ns.isEmpty n, writable_attrTokens _ ns]
end

@[simp] theorem writable_invocation (p : Path) (n : Node) : Writable (invocationPieces p n) := by
  unfold invocationPieces tokensPieces
  cases n with
  | group d ns => cases d <;> simp [writable_tokensFrom]
  | _ => simp

/-! ## Comments -/

theorem writable_comment {inner : Bool} {name value : String} :
    AllWritable (commentPieces? inner name value).toList := by
  unfold commentPieces?
  dsimp only
  repeat' split
  all_goals simp

theorem writable_attributeComment {inner : Bool} {p : Path} {body : List Node} :
    AllWritable (attributeComment? inner p body).toList := by
  unfold attributeComment?
  split
  · rename_i t
    split
    · cases hvalue : Text.unquote? t with
      | none => exact allWritable_nil
      | some value => exact writable_comment
    · exact allWritable_nil
  · exact allWritable_nil

end WrapperGen.Layout
