import WrapperGen.Proofs.Rendered.Phrases
/-!
# Spelled paths

A path is taken off its tokens if its arguments are.
-/

namespace WrapperGen.Source

open Tree Grammar

/-! ## Sizes -/

namespace Tree

@[simp] theorem sizes_append (ts us : List Tree) : sizes (ts ++ us) = sizes ts + sizes us := by
  induction ts with
  | nil => simp [sizes]
  | cons t ts ih => simp [sizes, ih, Nat.add_assoc]

@[simp] theorem sizes_word (text : String) : sizes (word text) = 1 := rfl

@[simp] theorem sizes_tick (name : String) : sizes (tick name) = 1 := rfl

@[simp] theorem sizes_within (d : Delim) (ts : List Tree) :
    sizes (within d ts) = sizes ts + 2 := rfl

theorem sizes_le_separated {sep : String} {trailing : Bool} {ts : List (List Tree)} {t : List Tree}
    (h : t ∈ ts) : sizes t ≤ sizes (separated sep trailing ts) := by
  fun_induction separated sep trailing ts with
  | case1 => cases h
  | case2 u =>
    cases List.mem_singleton.1 h
    rw [sizes_append]
    omega
  | case3 u us _ ih =>
    rw [sizes_append, sizes_append]
    rcases List.mem_cons.1 h with rfl | h
    · omega
    · have := ih h
      omega

mutual
theorem Spells.size_eq {t u : Tree} (h : t.Spells u) : u.size = t.size := by
  cases h with
  | leaf | punct => rfl
  | group inner => rw [size, size, spelled_sizes inner]
theorem spelled_sizes {ts us : List Tree} (h : Spelled ts us) : sizes us = sizes ts := by
  cases h with
  | nil => rfl
  | cons first more => rw [sizes, sizes, first.size_eq, spelled_sizes more]
end

end Tree

/-! ## Segments -/

/-- The tokens of a segment begin with its word. -/
theorem Spelled.segment {s : Segment} {us : List Tree} (h : Spelled s.trees us) :
    ∃ pos ws, us = .leaf (.ident s.name) pos :: ws ∧ Spelled s.args.trees ws := by
  obtain ⟨name, args⟩ := s
  obtain ⟨w, ws, rfl, hw, hws⟩ := Spelled.append_iff.1 h
  obtain ⟨pos, rfl⟩ := Spelled.word_iff.1 hw
  exact ⟨pos, ws, rfl, hws⟩

/-- A path begins with its first name or with two colons. -/
theorem Spelled.path {leading : Bool} {s : Segment} {ss : List Segment} {us : List Tree}
    (h : Spelled (Path.trees ⟨leading, s :: ss⟩) us) :
    (leading = false ∧ ∃ pos ts, us = .leaf (.ident s.name) pos :: ts) ∨
      (leading = true ∧ ∃ joint pos pos' ts,
        us = .leaf (.punct ":" true) pos :: .leaf (.punct ":" joint) pos' :: ts) := by
  rw [Path.trees_cons] at h
  obtain ⟨cs, ws, rfl, hcs, hws⟩ := Spelled.append_iff.1 h
  cases leading with
  | false =>
    obtain ⟨fs, rs, rfl, hfs, -⟩ := Spelled.append_iff.1 hws
    obtain ⟨pos, ts, rfl, -⟩ := hfs.segment
    cases hcs
    exact .inl ⟨rfl, pos, ts ++ rs, rfl⟩
  | true =>
    obtain ⟨joint, pos, pos', rfl⟩ := Spelled.colons hcs
    exact .inr ⟨rfl, joint, pos, pos', ws, rfl⟩

/-- The tokens of a further segment begin with colons. -/
theorem Spelled.further {s : Segment} {us : List Tree} (h : Spelled (op "::" ++ s.trees) us) :
    ∃ joint pos pos' ws, us = .leaf (.punct ":" true) pos :: .leaf (.punct ":" joint) pos' :: ws ∧
      Spelled s.trees ws := by
  obtain ⟨cs, ws, rfl, hcs, hws⟩ := Spelled.append_iff.1 h
  obtain ⟨joint, pos, pos', rfl⟩ := hcs.colons
  exact ⟨joint, pos, pos', ws, rfl, hws⟩

namespace Grammar

variable {g : Grammar} {inner : PathGrammar} {exprStyle : Bool} {us vs : List Tree}

/-- The segment is taken in front of what are no arguments. -/
def TakesSegment (g : Grammar) (inner : PathGrammar) (exprStyle : Bool) (s : Segment) : Prop :=
  ∀ ⦃us vs⦄, Spelled s.trees us → opensArgs exprStyle vs = false →
    Takes (g.segment inner exprStyle) (us ++ vs) vs s

/-- The arguments in angle brackets are taken. -/
def TakesAngle (g : Grammar) (inner : PathGrammar) (a : Args) : Prop :=
  ∀ ⦃us⦄ vs, Spelled a.trees us →
    opensArgs false (us ++ vs) = true ∧ Takes (g.angleArgs inner) (us ++ vs) vs a

/-- A word without arguments. -/
theorem takesSegment_word {name : String} (hword : isPathWord name) :
    g.TakesSegment inner exprStyle (.plain name) := by
  intro us vs hus hvs
  obtain ⟨pos, ws, rfl, hws⟩ := hus.segment
  cases hws
  unfold segment
  change Takes _ (.leaf (.ident name) pos :: vs) _ _
  rcases isPathWord_cases hword with hname | rfl | rfl | rfl | rfl | rfl
  · have hno {k : String} (hk : k ∈ keywords) :
        peekWord k (.leaf (.ident name) pos :: vs) = false := by
      simpa [peekWord] using isName_ne hname hk
    refine Takes.rest.bind (.ifFalse ?_ (.ifFalse (hno (by decide)) ?_))
    · simp (disch := decide) [hno]
    · exact (Takes.name hname).bind (Takes.rest.bind (.ifFalse hvs .pure))
  · exact Takes.rest.bind (.ifTrue rfl (Takes.anyWord.bind .pure))
  · exact Takes.rest.bind (.ifTrue rfl (Takes.anyWord.bind .pure))
  · exact Takes.rest.bind (.ifTrue rfl (Takes.anyWord.bind .pure))
  · exact Takes.rest.bind (.ifTrue rfl (Takes.anyWord.bind .pure))
  · exact Takes.rest.bind (.ifFalse rfl (.ifTrue rfl
      (Takes.anyWord.bind (Takes.rest.bind (.ifFalse hvs .pure)))))

/-- A name or `Self` with arguments. -/
theorem takesSegment_applied {s : Segment} (hname : isName s.name || s.name == "Self")
    (hargs : g.TakesAngle inner s.args) : g.TakesSegment inner false s := by
  intro us vs hus _
  obtain ⟨pos, ws, rfl, hws⟩ := hus.segment
  obtain ⟨name, args⟩ := s
  obtain ⟨hopens, htakes⟩ := hargs vs hws
  unfold segment
  simp only [Bool.or_eq_true, beq_iff_eq] at hname
  rcases hname with hname | rfl
  · have hno {k : String} (hk : k ∈ keywords) :
        peekWord k (.leaf (.ident name) pos :: (ws ++ vs)) = false := by
      simpa [peekWord] using isName_ne hname hk
    refine Takes.rest.bind (.ifFalse ?_ (.ifFalse (hno (by decide)) ?_))
    · simp (disch := decide) [hno]
    · exact (Takes.name hname).bind (Takes.rest.bind (.ifTrue hopens (htakes.bind .pure)))
  · exact Takes.rest.bind (.ifFalse rfl (.ifTrue rfl
      (Takes.anyWord.bind (Takes.rest.bind (.ifTrue hopens (htakes.bind .pure))))))

/-- A segment is taken if its arguments are. -/
theorem takesSegment {s : Segment} (hs : s.isFormed)
    (hargs : s.args ≠ .none → g.TakesAngle inner s.args) : g.TakesSegment inner false s := by
  obtain ⟨name, args⟩ := s
  simp only [Segment.isFormed, Bool.and_eq_true] at hs
  obtain ⟨⟨hword, -⟩, happlied⟩ := hs
  cases args with
  | none => exact takesSegment_word hword
  | angle turbofish as trailing => exact takesSegment_applied happlied (hargs (by simp))
  | paren ts trailing output => cases happlied

/-! ## More segments -/

variable {s : Segment} {ss : List Segment}

/-- What comes after a segment opens no arguments. -/
theorem opensArgs_more (hus : Spelled (ss.flatMap (op "::" ++ ·.trees)) us)
    (hvs : endsPath exprStyle vs) : opensArgs exprStyle (us ++ vs) = false := by
  cases ss with
  | nil =>
    cases hus
    simp only [endsPath, Bool.and_eq_true, Bool.not_eq_true', Bool.or_eq_true] at hvs
    rcases hvs with ⟨hcolons, rfl | hangle⟩ <;> simp [opensArgs, *]
  | cons s ss =>
    obtain ⟨fs, ws, rfl, hfs, -⟩ := Spelled.append_iff.1 hus
    obtain ⟨joint, pos, pos', ts, rfl, hts⟩ := Spelled.further hfs
    obtain ⟨pos'', rs, rfl, -⟩ := hts.segment
    cases exprStyle <;> rfl

/-- Segments with `::` in front, one after the other. -/
theorem takesAll_segments {go : List Tree → Bool} {style : Bool}
    (hgo : ∀ pos pos' pos'' joint name ws, go (.leaf (.punct ":" true) pos ::
      .leaf (.punct ":" joint) pos' :: .leaf (.ident name) pos'' :: ws) = true)
    (hstop : go vs = false) (hss : ∀ s ∈ ss, g.TakesSegment inner style s)
    (hus : Spelled (ss.flatMap (op "::" ++ ·.trees)) us) (hvs : endsPath style vs) :
    Takes (Reader.manyWhile go do
      let _ ← Reader.op "::"
      g.segment inner style) (us ++ vs) vs ss := by
  refine Takes.many ?_
  induction ss generalizing us with
  | nil =>
    cases hus
    exact .stop (Takes.ends hstop)
  | cons s ss ih =>
    obtain ⟨fs, ws, rfl, hfs, hws⟩ := Spelled.append_iff.1 hus
    obtain ⟨joint, pos, pos', ts, rfl, hts⟩ := Spelled.further hfs
    have hmore := ih (fun t ht => hss t (.tail _ ht)) hws
    have hs := hss s (.head _) hts (opensArgs_more hws hvs)
    obtain ⟨pos'', rs, rfl, -⟩ := hts.segment
    refine .step ?_ ?_ hmore
    · rw [List.append_assoc]
      exact Takes.goes (hgo _ _ _ _ _ _) ((Takes.op rfl).bind hs)
    · simp only [List.length_append, List.length_cons]
      omega

theorem takes_moreSegments (hss : ∀ s ∈ ss, g.TakesSegment inner exprStyle s)
    (hus : Spelled (ss.flatMap (op "::" ++ ·.trees)) us) (hvs : endsPath exprStyle vs) :
    Takes (g.moreSegments inner exprStyle) (us ++ vs) vs ss := by
  refine takesAll_segments (fun _ _ _ _ _ _ => rfl) ?_ hss hus hvs
  simp only [endsPath, Bool.and_eq_true, Bool.not_eq_true'] at hvs
  rw [hvs.1, Bool.false_and]

/-! ## Paths -/

/-- Colons that may be left out. -/
theorem takes_leading {leading : Bool} (hus : Spelled (when leading (op "::")) us)
    (hvs : peekOp "::" vs = false) :
    ∃ o, Takes (Reader.op? "::") (us ++ vs) vs o ∧ o.isSome = leading := by
  cases leading with
  | false =>
    cases hus
    exact ⟨none, .op?_none hvs, rfl⟩
  | true =>
    obtain ⟨joint, pos, pos', rfl⟩ := Spelled.colons hus
    exact ⟨_, .op?_some rfl, rfl⟩

theorem takes_pathWith {p : Path} (hne : p.segments ≠ [])
    (hss : ∀ s ∈ p.segments, g.TakesSegment inner exprStyle s) (hus : Spelled p.trees us)
    (hvs : endsPath exprStyle vs) : Takes (g.pathWith inner exprStyle) (us ++ vs) vs p := by
  obtain ⟨leading, _ | ⟨s, ss⟩⟩ := p
  · exact absurd rfl hne
  rw [Path.trees_cons] at hus
  obtain ⟨cs, ws, rfl, hcs, hws⟩ := Spelled.append_iff.1 hus
  obtain ⟨fs, rs, rfl, hfs, hrs⟩ := Spelled.append_iff.1 hws
  have hfirst := hss s (.head _) hfs (opensArgs_more hrs hvs)
  have hmore := takes_moreSegments (fun t ht => hss t (.tail _ ht)) hrs hvs
  have hcolons : peekOp "::" (fs ++ rs ++ vs) = false := by
    obtain ⟨pos, ts, rfl, -⟩ := hfs.segment
    rfl
  obtain ⟨o, htakes, rfl⟩ := takes_leading hcs hcolons
  unfold pathWith
  rw [List.append_assoc]
  rw [List.append_assoc fs] at htakes ⊢
  exact htakes.bind (hfirst.bind (hmore.bind .pure))

end Grammar

end WrapperGen.Source
