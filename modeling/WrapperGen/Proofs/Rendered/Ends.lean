import WrapperGen.Proofs.Rendered.Paths
/-!
# Where phrases begin and end

A type begins with a token that begins nothing else that may stand in its place. It is over where
nothing follows that would go on with it.
-/

namespace WrapperGen.Source

open Tree Grammar

/-! ## Beginnings -/

/-- Words that are no names and may begin a type. -/
def typeWords : List String :=
  ["super", "self", "Self", "crate", "fn", "unsafe", "extern", "for", "dyn", "impl", "_"]

/-- Whether a tree may begin a type. -/
def Tree.opensTy : Tree → Bool
  | .leaf (.ident w) _ => isName w || typeWords.contains w
  | .leaf (.punct t _) _ => [":", "<", "*", "&", "!"].contains t
  | .group d _ _ _ => d != .brace
  | _ => false

/-- The trees begin with a tree that may begin a type. -/
def BeginsType (us : List Tree) : Prop := ∃ u vs, us = u :: vs ∧ u.opensTy

namespace BeginsType

variable {us vs : List Tree}

theorem append (h : BeginsType us) (vs : List Tree) : BeginsType (us ++ vs) := by
  obtain ⟨u, ws, rfl, hu⟩ := h
  exact ⟨u, ws ++ vs, rfl, hu⟩

theorem spelled (h : BeginsType us) (hvs : Spelled us vs) : BeginsType vs := by
  obtain ⟨u, ws, rfl, hu⟩ := h
  obtain _ | ⟨hspells, -⟩ := hvs
  refine ⟨_, _, rfl, ?_⟩
  cases hspells with
  | @leaf token => cases token <;> exact hu
  | punct => exact hu
  | group => exact hu

theorem ne_nil (h : BeginsType us) : us ≠ [] := by
  obtain ⟨u, ws, rfl, -⟩ := h
  exact List.cons_ne_nil _ _

/-- An operator that begins with no sign of a type is not there. -/
theorem peekOp (h : BeginsType us) {text : String} {c : Char} {cs : List Char}
    (htext : text.toList = c :: cs) (hc : String.singleton c ∉ [":", "<", "*", "&", "!"]) :
    peekOp text us = false := by
  obtain ⟨u, ws, rfl, hu⟩ := h
  unfold Source.peekOp
  rw [htext]
  match u, hu with
  | .leaf (.ident _) _, _ => cases cs <;> rfl
  | .group _ _ _ _, _ => cases cs <;> rfl
  | .leaf (.punct t joint) _, hu =>
    have hne : (t == String.singleton c) = false := by
      refine beq_false_of_ne fun heq => hc ?_
      subst heq
      simpa [opensTy] using hu
    cases cs with
    | nil => exact hne
    | cons c' cs => cases joint <;> simp [peekPunctChars, hne]

theorem peekWord (h : BeginsType us) {w : String} (hw : w ∈ keywords) (hno : w ∉ typeWords) :
    peekWord w us = false := by
  obtain ⟨u, ws, rfl, hu⟩ := h
  match u, hu with
  | .leaf (.punct ..) _, _ | .group _ _ _ _, _ => rfl
  | .leaf (.ident text) _, hu =>
    refine beq_false_of_ne fun heq => ?_
    subst heq
    simp only [opensTy, Bool.or_eq_true, List.contains_iff_mem] at hu
    rcases hu with hu | hu
    · simp [isName, hw] at hu
    · exact hno hu

theorem peekLifetime (h : BeginsType us) : peekLifetime us = false := by
  obtain ⟨u, ws, rfl, hu⟩ := h
  match u, hu with
  | .leaf (.ident _) _, _ | .leaf (.punct ..) _, _ | .group _ _ _ _, _ => rfl

theorem peekBrace (h : BeginsType us) : peekGroup .brace us = false := by
  obtain ⟨u, ws, rfl, hu⟩ := h
  match u, hu with
  | .leaf (.ident _) _, _ | .leaf (.punct ..) _, _ => rfl
  | .group d _ _ _, hu => cases d <;> first | rfl | cases hu

theorem peekLit (h : BeginsType us) : peekLit us = false := by
  have htrue := h.peekWord (w := "true") (by decide) (by decide)
  have hfalse := h.peekWord (w := "false") (by decide) (by decide)
  have hminus : WrapperGen.Source.peekOp "-" us = false := h.peekOp (c := '-') rfl (by decide)
  obtain ⟨u, ws, rfl, hu⟩ := h
  match u, hu with
  | .group _ _ _ _, _ => rfl
  | .leaf (.ident text) _, _ =>
    simp only [Source.peekWord] at htrue hfalse
    simp [Source.peekLit, htrue, hfalse]
  | .leaf (.punct t joint) _, _ =>
    have hne : t ≠ "-" := by
      rintro rfl
      cases hminus
    unfold Source.peekLit
    split <;> simp_all

end BeginsType

/-! ## Ends -/

/-- Whether a type or a bound is over before the trees; `plus` tells that it may be a sum. -/
def endsPhrase (plus : Bool) (us : List Tree) : Bool :=
  !peekOp "::" us && !peekOp "<" us && !peekOp "!" us && !peekOp "->" us &&
    !(plus && peekOp "+" us) && !peekGroup .paren us

theorem endsPhrase_iff {plus : Bool} {us : List Tree} : endsPhrase plus us ↔
    peekOp "::" us = false ∧ peekOp "<" us = false ∧ peekOp "!" us = false ∧
      peekOp "->" us = false ∧ (plus = true → peekOp "+" us = false) ∧
      peekGroup .paren us = false := by
  cases plus <;> simp [endsPhrase, and_assoc]

section Ends

variable {plus : Bool} {us : List Tree}

theorem endsPhrase_mono {plus' : Bool} (h : endsPhrase plus us) (hplus : plus' = true → plus = true) :
    endsPhrase plus' us := by
  rw [endsPhrase_iff] at h ⊢
  exact ⟨h.1, h.2.1, h.2.2.1, h.2.2.2.1, fun h' => h.2.2.2.2.1 (hplus h'), h.2.2.2.2.2⟩

/-- What ends a phrase with a `+` in it ends one without. -/
theorem endsPhrase_single (h : endsPhrase plus us) : endsPhrase false us :=
  endsPhrase_mono h fun hfalse => absurd hfalse Bool.false_ne_true

theorem endsPath_of_endsPhrase {exprStyle : Bool} (h : endsPhrase plus us) : endsPath exprStyle us := by
  obtain ⟨hcolons, hangle, -⟩ := endsPhrase_iff.1 h
  simp [endsPath, hcolons, hangle]

/-- A sign that neither goes on with a type nor begins what does. -/
theorem endsPhrase_sign {text : String} {joint : Bool} {pos : Pos} {vs : List Tree}
    (htext : text ∉ [":", "<", "!", "-", "+"]) :
    endsPhrase plus (.leaf (.punct text joint) pos :: vs) := by
  simp only [List.mem_cons, List.not_mem_nil, or_false, not_or] at htext
  rw [endsPhrase_iff]
  cases joint <;> simp_all [peekOp, peekPunctChars, peekGroup]

/-- A single colon. -/
theorem endsPhrase_colon {joint : Bool} {pos : Pos} {vs : List Tree} (hvs : peekOp ":" vs = false) :
    endsPhrase plus (.leaf (.punct ":" joint) pos :: vs) := by
  rw [endsPhrase_iff]
  refine ⟨?_, rfl, rfl, ?_, fun _ => rfl, rfl⟩
  · cases joint with
    | false => rfl
    | true => exact hvs
  · cases joint <;> rfl

/-- A plus ends what is no sum. -/
theorem endsPhrase_plus {joint : Bool} {pos : Pos} {vs : List Tree} :
    endsPhrase false (.leaf (.punct "+" joint) pos :: vs) := by
  cases joint <;> rfl

/-- Whether a generic argument is over before the trees. -/
def endsArg : List Tree → Bool
  | .leaf (.punct t _) _ :: _ => t == "," || t == ">"
  | _ => false

theorem endsArg_iff : endsArg us ↔
    ∃ t joint pos vs, us = .leaf (.punct t joint) pos :: vs ∧ (t = "," ∨ t = ">") := by
  unfold endsArg
  split
  · simp
  · rename_i hno
    simp only [Bool.false_eq_true, false_iff]
    rintro ⟨t, joint, pos, vs, rfl, -⟩
    exact hno _ _ _ _ rfl

theorem endsArg_signs (h : endsArg us) : (peekOp "," us || peekOp ">" us) = true ∧
    peekOp "=" us = false ∧ peekOp ":" us = false ∧ peekOp "+" us = false := by
  obtain ⟨t, joint, pos, vs, rfl, rfl | rfl⟩ := endsArg_iff.1 h <;> exact ⟨rfl, rfl, rfl, rfl⟩

/-- What ends an item of a list up to an angle bracket ends an argument. -/
theorem endsArg_of_separates (h : Takes.Separates (peekOp ">") "," us) : endsArg us := by
  rcases h with hangle | ⟨joint, pos, vs, rfl⟩
  · match us, hangle with
    | .leaf (.punct t _) _ :: _, hangle =>
      have ht : t = ">" := by simpa [peekOp, peekPunctChars] using hangle
      rw [ht]
      rfl
  · rfl

theorem endsPhrase_of_endsArg (h : endsArg us) : endsPhrase plus us := by
  obtain ⟨t, joint, pos, vs, rfl, rfl | rfl⟩ := endsArg_iff.1 h <;>
    exact endsPhrase_sign (by decide)

end Ends

end WrapperGen.Source
