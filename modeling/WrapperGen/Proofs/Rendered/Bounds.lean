import WrapperGen.Proofs.Rendered.Ends
/-!
# Spelled bounds

Binders and bounds are taken off their tokens, and sums of bounds with them, if the arguments of
their paths are.
-/

namespace WrapperGen.Source

open Tree Grammar

/-! ## Binders -/

namespace Grammar

variable {g : Grammar} {inner : PathGrammar} {us vs : List Tree}

theorem takes_lifetimesWhile {stop : List Tree → Bool}
    (hstop : ∀ name pos ws, stop (.leaf (.lifetime name) pos :: ws) = false) {names : List String}
    (hne : names ≠ []) (hus : Spelled (separated "+" false (names.map tick)) us)
    (hvs : peekOp "+" vs = false) {fuel : Nat} (hfuel : names.length < fuel) :
    Takes (lifetimesWhile stop fuel) (us ++ vs) vs names := by
  induction names generalizing us fuel with
  | nil => exact absurd rfl hne
  | cons name names ih =>
    obtain ⟨fuel, rfl⟩ := Nat.exists_eq_add_one_of_ne_zero (Nat.ne_zero_of_lt hfuel)
    cases names with
    | nil =>
      rw [List.map_singleton, separated_singleton] at hus
      obtain ⟨pos, rfl⟩ := Spelled.tick_iff.1 hus
      exact Takes.test.bind (.ifFalse (hstop _ _ _) (Takes.lifetime.bind
        (Takes.test.bind (.ifFalse hvs .pure))))
    | cons next names =>
      obtain ⟨ts, joint, pos', rs, rfl, hts, hrs⟩ := Spelled.separated_more (c := '+') rfl hus
      obtain ⟨pos, rfl⟩ := Spelled.tick_iff.1 hts
      have hmore := ih (List.cons_ne_nil _ _) hrs (by simpa using hfuel)
      exact Takes.test.bind (.ifFalse (hstop _ _ _) (Takes.lifetime.bind
        (Takes.test.bind (.ifTrue rfl ((Takes.op rfl).bind (hmore.bind .pure))))))

/-- The parameters after `for` are lifetimes with their bounds. -/
theorem takes_lifetimeParam {name : String} {bounds : List String}
    (hus : Spelled (GenericParam.lifetime [] name bounds).trees us) (hvs : endsArg vs) :
    peekOp ">" (us ++ vs) = false ∧
      Takes (g.genericParam inner) (us ++ vs) vs (.lifetime [] name bounds) := by
  obtain ⟨t, joint, pos', rest, rfl, ht⟩ := endsArg_iff.1 hvs
  have hends : peekOp ":" (.leaf (.punct t joint) pos' :: rest) = false ∧
      peekOp "+" (.leaf (.punct t joint) pos' :: rest) = false := by
    rcases ht with rfl | rfl <;> exact ⟨rfl, rfl⟩
  rw [GenericParam.trees] at hus
  obtain ⟨fs, ws, rfl, hfs, hws⟩ := Spelled.append_iff.1 hus
  obtain ⟨as, ts, rfl, has, hts⟩ := Spelled.append_iff.1 hfs
  cases has
  obtain ⟨pos, rfl⟩ := Spelled.tick_iff.1 hts
  refine ⟨rfl, ?_⟩
  unfold genericParam
  refine (Takes.manyWhile_nil rfl).bind (Takes.rest.bind (.ifTrue rfl ?_))
  unfold lifetimeParam
  refine Takes.lifetime.bind ?_
  cases bounds with
  | nil =>
    cases hws
    exact (Takes.op?_none hends.1).bind (.ifFalse rfl (Takes.pure.bind .pure))
  | cons b bounds =>
    obtain ⟨cs, bs, rfl, hcs, hbs⟩ := Spelled.append_iff.1 hws
    obtain ⟨joint', pos'', rfl⟩ := Spelled.sign (c := ':') rfl hcs
    have hlength : (b :: bounds).length ≤ bs.length :=
      hbs.length_separated fun _ _ => List.cons_ne_nil _ _
    refine (Takes.op?_some rfl).bind (.ifTrue rfl (Takes.rest.bind ?_))
    refine (takes_lifetimesWhile (fun _ _ _ => rfl) (List.cons_ne_nil _ _) hbs hends.2 ?_).bind .pure
    show (b :: bounds).length < (bs ++ _).length + 1
    rw [List.length_append]
    omega

/-- A parameter of a binder that may be written. -/
theorem takes_genericParam {p : GenericParam} (hp : (Phrase.genericParam p).IsPlain) :
    Takes.TakesItem (peekOp ">") "," (g.genericParam inner) p.trees p := by
  intro us vs hus hvs
  cases p with
  | lifetime attrs name bounds =>
    cases hp
    exact takes_lifetimeParam hus (endsArg_of_separates hvs)
  | type | const => cases hp

theorem takes_binder {b : Binder} (hformed : (Phrase.binder b).IsFormed)
    (hplain : ∀ p ∈ b.params, (Phrase.genericParam p).IsPlain) {e : Nat}
    (hus : Spelled b.trees us) (vs : List Tree) :
    peekWord "for" (us ++ vs) = true ∧ Takes (binder (g.paths (e + 1))) (us ++ vs) vs b := by
  obtain ⟨params, trailing⟩ := b
  rw [Binder.trees, genericParamTrees_eq] at hus
  obtain ⟨fs, cs, rfl, hfs, hcs⟩ := Spelled.append_iff.1 hus
  obtain ⟨ls, ps, rfl, hls, hps⟩ := Spelled.append_iff.1 hfs
  obtain ⟨ws, os, rfl, hws, hos⟩ := Spelled.append_iff.1 hls
  obtain ⟨pos, rfl⟩ := Spelled.word_iff.1 hws
  obtain ⟨joint, pos', rfl⟩ := Spelled.sign (c := '<') rfl hos
  obtain ⟨joint', pos'', rfl⟩ := Spelled.sign (c := '>') rfl hcs
  have hne (p : GenericParam) (hp : p ∈ params) : p.trees ≠ [] := by
    have := hplain p hp
    cases p with
    | lifetime attrs name bounds =>
      rw [GenericParam.trees]
      simp [tick]
    | type | const => cases this
  have hend : peekOp ">" (.leaf (.punct ">" joint') pos'' :: vs) = true := rfl
  have hitem (p : GenericParam) (hp : p ∈ params) :
      Takes.TakesItem (peekOp ">") "," (g.genericParam (g.paths e)) p.trees p :=
    takes_genericParam (hplain p hp)
  have hlist := Takes.separatedUntil (c := ',') rfl (fun _ _ _ => rfl) hitem hne hformed hps hend
  refine ⟨rfl, ?_⟩
  unfold binder
  simp only [List.append_assoc, List.cons_append, List.nil_append]
  refine Takes.word.bind (Takes.bind (a := ⟨true, params, trailing, none⟩) ?_ .pure)
  show Takes (g.angleParams (g.paths e)) _ _ _
  unfold angleParams
  exact (Takes.op rfl).bind (hlist.bind ((Takes.op rfl).bind .pure))

end Grammar

/-! ## Arguments -/

/-- The arguments are taken off their tokens; `d` and `e` tell how deep a grammar has to be. -/
def Args.ReadsBack : Args → Prop
  | .none => True
  | a@(.angle ..) => ∀ ⦃d e : Nat⦄, sizes a.trees ≤ d → sizes a.trees ≤ e →
      (ofDepth d).TakesAngle ((ofDepth d).paths e) a
  | a@(.paren ..) => ∀ ⦃d : Nat⦄ ⦃us vs : List Tree⦄, sizes a.trees ≤ d → Spelled a.trees us →
      endsPhrase false vs →
        peekGroup .paren (us ++ vs) = true ∧ Takes (ofDepth d).parenArgs (us ++ vs) vs a

/-! ## Paths -/

theorem sizes_args_le {p : Path} {s : Segment} (hs : s ∈ p.segments) :
    sizes s.args.trees + 1 ≤ sizes p.trees := by
  obtain ⟨leading, ss⟩ := p
  have hle : sizes s.trees ≤ sizes (separated "::" false (segmentTrees ss)) := by
    rw [segmentTrees_eq]
    exact sizes_le_separated (List.mem_map_of_mem hs)
  obtain ⟨name, args⟩ := s
  rw [Segment.trees, sizes_append, sizes_word] at hle
  rw [Path.trees, sizes_append]
  dsimp only
  omega

namespace Grammar

variable {d e : Nat} {us vs : List Tree}

theorem takesSegment_of_readsBack {p : Path} {s : Segment} (hs : s ∈ p.segments)
    (hformed : s.isFormed) (hargs : s.args.ReadsBack) (hd : sizes p.trees ≤ d + 1)
    (he : sizes p.trees ≤ e + 1) :
    (ofDepth d).TakesSegment ((ofDepth d).paths e) false s := by
  have hle := sizes_args_le hs
  refine takesSegment hformed fun hsome => ?_
  obtain ⟨name, args⟩ := s
  dsimp only at hle
  cases args with
  | none => exact absurd rfl hsome
  | angle => exact hargs (by omega) (by omega)
  | paren =>
    rw [Segment.isFormed, Bool.and_false] at hformed
    cases hformed

theorem takes_path {p : Path} (hp : p.isFormed) (hargs : ∀ s ∈ p.segments, s.args.ReadsBack)
    (hd : sizes p.trees ≤ d + 1) (he : sizes p.trees ≤ e + 1) (hus : Spelled p.trees us)
    (hvs : endsPath false vs) :
    Takes ((ofDepth d).pathWith ((ofDepth d).paths e) false) (us ++ vs) vs p := by
  simp only [Path.isFormed, Bool.and_eq_true, List.all_eq_true, Bool.not_eq_true',
    List.isEmpty_eq_false_iff] at hp
  exact takes_pathWith hp.1
    (fun s hs => takesSegment_of_readsBack hs (hp.2 s hs) (hargs s hs) hd he) hus hvs

end Grammar

/-! ## Traits -/

theorem separated_append {sep : String} (xs : List (List Tree)) (t u : List Tree) :
    separated sep false (xs ++ [t ++ u]) = separated sep false (xs ++ [t]) ++ u := by
  induction xs with
  | nil => rw [List.nil_append, List.nil_append, separated_singleton, separated_singleton]
  | cons x xs ih =>
    obtain ⟨y, ys, hys⟩ : ∃ y ys, xs ++ [t] = y :: ys := by
      cases xs with
      | nil => exact ⟨_, _, rfl⟩
      | cons => exact ⟨_, _, rfl⟩
    obtain ⟨z, zs, hzs⟩ : ∃ z zs, xs ++ [t ++ u] = z :: zs := by
      cases xs with
      | nil => exact ⟨_, _, rfl⟩
      | cons => exact ⟨_, _, rfl⟩
    rw [List.cons_append, List.cons_append, hys, hzs, separated_cons_cons, separated_cons_cons,
      ← hys, ← hzs, ih, List.append_assoc _ _ u]

/-- The trait of a bound is a path of words, or its last word is called. -/
theorem Path.isBound_cases {p : Path} (h : p.isBound) : p.isFormed ∨
    ∃ ss last, p.segments = ss ++ [last] ∧ (∀ s ∈ ss, s.isFormed) ∧ last.isCalled := by
  obtain ⟨leading, ss⟩ := p
  simp only [isBound, Bool.and_eq_true, List.all_eq_true, Option.any_eq_true, Bool.or_eq_true] at h
  obtain ⟨hfront, last, hlast, hformed | hcalled⟩ := h
  · refine .inl ?_
    have hsplit := List.dropLast_append_getLast? last hlast
    simp only [isFormed, Bool.and_eq_true, Bool.not_eq_true', List.isEmpty_eq_false_iff,
      List.all_eq_true]
    refine ⟨?_, fun s hs => ?_⟩
    · rintro rfl
      cases hlast
    · rw [← hsplit] at hs
      rcases List.mem_append.1 hs with hs | hs
      · exact hfront s hs
      · rwa [List.mem_singleton.1 hs]
  · have hsplit : ss = ss.dropLast ++ [last] := (List.dropLast_append_getLast? last hlast).symm
    exact .inr ⟨ss.dropLast, last, hsplit, hfront, hcalled⟩

theorem Segment.isPathWord_of_isFormed {s : Segment} (hs : s.isFormed = true) :
    isPathWord s.name := by
  simp only [isFormed, Bool.and_eq_true] at hs
  exact hs.1.1

theorem Path.isPathWord_of_isBound {p : Path} (h : p.isBound) :
    p.segments ≠ [] ∧ ∀ s ∈ p.segments, isPathWord s.name := by
  rcases isBound_cases h with hformed | ⟨ss, last, hsegments, hfront, hcalled⟩
  · simp only [isFormed, Bool.and_eq_true, List.all_eq_true, Bool.not_eq_true',
      List.isEmpty_eq_false_iff] at hformed
    exact ⟨hformed.1, fun s hs => Segment.isPathWord_of_isFormed (hformed.2 s hs)⟩
  · rw [hsegments]
    refine ⟨List.append_ne_nil_of_right_ne_nil _ (List.cons_ne_nil _ _), fun s hs => ?_⟩
    rcases List.mem_append.1 hs with hs | hs
    · exact Segment.isPathWord_of_isFormed (hfront s hs)
    · rw [List.mem_singleton.1 hs]
      simp only [Segment.isCalled, Bool.and_eq_true] at hcalled
      exact hcalled.1.1

/-- The trees begin as a path does. -/
inductive BeginsPath : List Tree → Prop
  | colons {joint : Bool} {pos pos' : Pos} {us : List Tree} :
      BeginsPath (.leaf (.punct ":" true) pos :: .leaf (.punct ":" joint) pos' :: us)
  | word {w : String} {pos : Pos} {us : List Tree} (hw : isPathWord w) :
      BeginsPath (.leaf (.ident w) pos :: us)

namespace BeginsPath

variable {us : List Tree}

theorem append (h : BeginsPath us) (vs : List Tree) : BeginsPath (us ++ vs) := by
  cases h with
  | colons => exact .colons
  | word hw => exact .word hw

theorem peekWord (h : BeginsPath us) {w : String} (hw : isPathWord w = false) :
    peekWord w us = false := by
  cases h with
  | colons => rfl
  | word hword =>
    refine beq_false_of_ne fun heq => ?_
    rw [heq, hw] at hword
    cases hword

theorem peekGroup (h : BeginsPath us) (d : Delim) : peekGroup d us = false := by
  cases h <;> rfl

theorem peekLifetime (h : BeginsPath us) : peekLifetime us = false := by
  cases h <;> rfl

theorem peekMaybe (h : BeginsPath us) : peekOp "?" us = false := by
  cases h <;> rfl

theorem peekAngle (h : BeginsPath us) : peekOp "<" us = false ∧ peekOp "<=" us = false := by
  cases h <;> exact ⟨rfl, rfl⟩

/-- Where no two colons are, none is. -/
theorem noColon {ts : List Tree} (h : BeginsPath ts) (hcolons : peekOp "::" ts = false)
    (hus : Spelled ts us) (vs : List Tree) : peekOp ":" (us ++ vs) = false := by
  cases h with
  | colons => cases hcolons
  | word =>
    obtain _ | ⟨⟨⟩, -⟩ := hus
    rfl

/-- Only one word of a path begins no type. -/
theorem beginsType (h : BeginsPath us) (htry : Source.peekWord "try" us = false) : BeginsType us := by
  cases h with
  | colons => exact ⟨_, _, rfl, rfl⟩
  | @word w _ _ hw =>
    refine ⟨_, _, rfl, ?_⟩
    rcases isPathWord_cases hw with hname | rfl | rfl | rfl | rfl | rfl
    · simp [opensTy, hname]
    · rfl
    · rfl
    · rfl
    · cases htry
    · rfl

end BeginsPath

theorem Path.beginsPath {p : Path} (hne : p.segments ≠ [])
    (hwords : ∀ s ∈ p.segments, isPathWord s.name) {us : List Tree} (hus : Spelled p.trees us) :
    BeginsPath us := by
  obtain ⟨leading, _ | ⟨s, ss⟩⟩ := p
  · exact absurd rfl hne
  obtain ⟨-, pos, ts, rfl⟩ | ⟨-, joint, pos, pos', ts, rfl⟩ := hus.path
  · exact .word (hwords s (.head _))
  · exact .colons

theorem Path.beginsPath_of_isFormed {p : Path} (h : p.isFormed) {us : List Tree}
    (hus : Spelled p.trees us) : BeginsPath us := by
  rw [isFormed_iff] at h
  exact beginsPath h.1 (fun s hs => Segment.isPathWord_of_isFormed (h.2 s hs)) hus

/-- A path that may be a type does not begin with the word that begins none. -/
theorem Path.peekTry {p : Path} (hopens : p.opensType) {us : List Tree} (hus : Spelled p.trees us) :
    peekWord "try" us = false := by
  obtain ⟨leading, _ | ⟨s, ss⟩⟩ := p
  · rw [Path.trees, segmentTrees, separated, List.append_nil] at hus
    cases leading with
    | false =>
      cases hus
      rfl
    | true =>
      obtain ⟨joint, pos, pos', rfl⟩ := Spelled.colons hus
      rfl
  obtain ⟨rfl, pos, ts, rfl⟩ | ⟨-, joint, pos, pos', ts, rfl⟩ := hus.path
  · have hne : (s.name == "try") = false := by simpa [opensType] using hopens
    exact hne
  · rfl

namespace Grammar

variable {d e : Nat} {us vs : List Tree}

/-- The path of a trait is taken, and after it what its last word is called with. -/
theorem takes_boundPath {p : Path} (hp : p.isBound) (hargs : ∀ s ∈ p.segments, s.args.ReadsBack)
    (hd : sizes p.trees ≤ d) (he : sizes p.trees ≤ e) (hus : Spelled p.trees us)
    (hvs : endsPhrase false vs) :
    Takes ((ofDepth d).pathWith ((ofDepth d).paths e) false) (us ++ vs) vs p ∨
      ∃ (q : Path) (name : String) (args : Args) (ws : List Tree),
        p = ⟨q.leading, q.segments ++ [⟨name, args⟩]⟩ ∧
        Takes ((ofDepth d).pathWith ((ofDepth d).paths e) false) (us ++ vs) ws (q.child name) ∧
        peekGroup .paren ws = true ∧ Takes (ofDepth d).parenArgs ws vs args := by
  rcases Path.isBound_cases hp with hformed | ⟨ss, ⟨name, args⟩, hsegments, hfront, hcalled⟩
  · exact .inl (takes_path hformed hargs (by omega) (by omega) hus (endsPath_of_endsPhrase hvs))
  obtain ⟨leading, segments⟩ := p
  dsimp only at hsegments
  subst hsegments
  right
  have htrees : Path.trees ⟨leading, ss ++ [⟨name, args⟩]⟩ =
      (Path.child ⟨leading, ss⟩ name).trees ++ args.trees := by
    rw [Path.child, Path.trees, Path.trees, segmentTrees_eq, segmentTrees_eq, List.map_append,
      List.map_append, List.map_singleton, List.map_singleton, Segment.plain, Segment.trees,
      Segment.trees, separated_append, Args.trees, List.append_nil, List.append_assoc]
  rw [htrees] at hus
  rw [htrees, sizes_append] at hd he
  obtain ⟨qs, as, rfl, hqs, has⟩ := Spelled.append_iff.1 hus
  simp only [Segment.isCalled, Bool.and_eq_true] at hcalled
  obtain ⟨hword, hparen⟩ := hcalled
  have hcall : peekGroup .paren (as ++ vs) = true ∧
      Takes (ofDepth d).parenArgs (as ++ vs) vs args := by
    cases args with
    | none | angle => cases hparen
    | paren => exact hargs _ (List.mem_append_right _ (.head _)) (by omega) has hvs
  refine ⟨⟨leading, ss⟩, name, args, as ++ vs, rfl, ?_, hcall⟩
  rw [List.append_assoc]
  refine takes_path ?_ ?_ (by omega) (by omega) hqs ?_
  · have hlast : (Segment.plain name).isFormed := by
      simp [Segment.isFormed, Segment.plain, hword]
    simp only [Path.isFormed, Path.child, List.all_append, Bool.and_eq_true, List.all_eq_true,
      Bool.not_eq_true', List.isEmpty_eq_false_iff, List.all_cons, List.all_nil, and_true]
    exact ⟨List.append_ne_nil_of_right_ne_nil _ (List.cons_ne_nil _ _), hfront, hlast⟩
  · intro s hs
    rcases List.mem_append.1 hs with hs | hs
    · exact hargs s (List.mem_append_left _ hs)
    · rw [List.mem_singleton.1 hs]
      trivial
  · obtain ⟨hgroup, -⟩ := hcall
    generalize as ++ vs = ws at hgroup ⊢
    unfold peekGroup at hgroup
    split at hgroup
    · rfl
    · cases hgroup

/-- A path and what its last word is called with, in front of whatever makes use of it. -/
theorem takes_traitPath {β : Type} {k : Path → Reader β} {b : β} {p : Path} (hp : p.isBound)
    (hargs : ∀ s ∈ p.segments, s.args.ReadsBack) (hd : sizes p.trees ≤ d) (he : sizes p.trees ≤ e)
    (hus : Spelled p.trees us) (hvs : endsPhrase false vs) (hk : Takes (k p) vs vs b) :
    Takes (do
      let path ← (ofDepth d).pathWith ((ofDepth d).paths e) false
      let ts ← Reader.rest
      if path.segments.getLast?.any Segment.isPlain &&
          (peekGroup .paren ts || (peekOp "::" ts && peekGroup .paren (ts.drop 2))) then
        let _ ← Reader.op? "::"
        let args ← (ofDepth d).parenArgs
        k { path with
          segments := path.segments.dropLast ++
            (path.segments.getLast?.map fun s => { s with args := args }).toList }
      else k path) (us ++ vs) vs b := by
  rcases takes_boundPath hp hargs hd he hus hvs with
    hpath | ⟨q, name, args, ws, rfl, hpath, hparen, hcall⟩
  · have hends := endsPhrase_iff.1 hvs
    refine hpath.bind (Takes.rest.bind (.ifFalse ?_ hk))
    rw [hends.1, hends.2.2.2.2.2]
    simp
  · have hcolons : peekOp "::" ws = false := by
      match ws, hparen with
      | .group _ _ _ _ :: _, _ => rfl
    refine hpath.bind (Takes.rest.bind (.ifTrue ?_ ((Takes.op?_none hcolons).bind (hcall.bind ?_))))
    · simp [Path.child, Segment.plain, Segment.isPlain, hparen]
    · simp only [Path.child, List.dropLast_concat, List.getLast?_concat, Option.map_some]
      exact hk

/-- A trait with its modifiers. -/
theorem takes_traitBound {allowConst maybe : Bool} {b : Option Binder} {p : Path}
    (hb : ∀ x, b = some x → (Phrase.binder x).IsFormed ∧
      ∀ q ∈ x.params, (Phrase.genericParam q).IsPlain)
    (hp : p.isBound) (hargs : ∀ s ∈ p.segments, s.args.ReadsBack)
    (hd : sizes p.trees ≤ d) (he : sizes p.trees ≤ e + 1)
    (hus : Spelled (when maybe (op "?") ++ binderTrees b ++ p.trees) us)
    (hvs : endsPhrase false vs) :
    Takes ((ofDepth d).traitBound ((ofDepth d).paths (e + 1)) allowConst) (us ++ vs) vs
      (some (.trait false maybe b p)) := by
  obtain ⟨ms, ps, rfl, hms, hps⟩ := Spelled.append_iff.1 hus
  obtain ⟨qs, bs, rfl, hqs, hbs⟩ := Spelled.append_iff.1 hms
  have hbegins := (Path.beginsPath (Path.isPathWord_of_isBound hp).1
    (Path.isPathWord_of_isBound hp).2 hps).append vs
  have hbinder : Takes (binder? ((ofDepth d).paths (e + 1))) (bs ++ (ps ++ vs)) (ps ++ vs) b := by
    unfold binder?
    cases b with
    | none =>
      cases hbs
      exact Takes.test.bind (.ifFalse (hbegins.peekWord rfl) .pure)
    | some x =>
      obtain ⟨hformed, hplain⟩ := hb x rfl
      obtain ⟨hfor, htakes⟩ := takes_binder hformed hplain hbs (ps ++ vs)
      exact Takes.test.bind (.ifTrue hfor (htakes.bind .pure))
  unfold traitBound
  rw [List.append_assoc, List.append_assoc]
  cases maybe with
  | false =>
    cases hqs
    refine hbinder.bind (Takes.rest.bind (Takes.get fun c hc => ?_))
    refine .ifFalse (hbegins.peekGroup _) (.ifFalse (hbegins.peekWord rfl) ?_)
    refine Takes.pure.bind ((Takes.op?_none hbegins.peekMaybe).bind ?_)
    refine .ifFalse (by simp) ?_
    refine Takes.pure.bind ?_
    refine takes_traitPath hp hargs hd he hps hvs ?_
    cases b <;> exact Takes.pure
  | true =>
    obtain ⟨joint, pos, rfl⟩ := Spelled.sign (c := '?') rfl hqs
    refine Takes.bind (a := none) (Takes.test.bind (.ifFalse rfl .pure)) ?_
    refine Takes.rest.bind (Takes.get fun c hc => ?_)
    refine .ifFalse rfl (.ifFalse rfl (Takes.pure.bind ((Takes.op?_some rfl).bind ?_)))
    refine .ifTrue rfl (hbinder.bind ?_)
    refine takes_traitPath hp hargs hd he hps hvs ?_
    cases b <;> exact Takes.pure

/-! ## Bounds -/

end Grammar

/-- What is written of a bound, but for parentheses around all of it. -/
def Bound.isWritten : Bound → Prop
  | .lifetime _ => True
  | .trait _ _ b p => p.isBound ∧ (∀ s ∈ p.segments, s.args.ReadsBack) ∧
      ∀ x, b = some x → (Phrase.binder x).IsFormed ∧
        ∀ q ∈ x.params, (Phrase.genericParam q).IsPlain
  | _ => False

namespace Grammar

/-- A trait begins with its modifiers or with its path. -/
theorem begins_trait {maybe : Bool} {b : Option Binder} {p : Path} (hp : p.isBound)
    (hus : Spelled (when maybe (op "?") ++ binderTrees b ++ p.trees) us) :
    (∃ joint pos ws, us = .leaf (.punct "?" joint) pos :: ws) ∨
      (∃ pos ws, us = .leaf (.ident "for") pos :: ws) ∨ BeginsPath us := by
  obtain ⟨ms, ps, rfl, hms, hps⟩ := Spelled.append_iff.1 hus
  obtain ⟨qs, bs, rfl, hqs, hbs⟩ := Spelled.append_iff.1 hms
  cases maybe with
  | true =>
    obtain ⟨joint, pos, rfl⟩ := Spelled.sign (c := '?') rfl hqs
    exact .inl ⟨joint, pos, _, rfl⟩
  | false =>
    cases hqs
    cases b with
    | none =>
      cases hbs
      obtain ⟨hne, hwords⟩ := Path.isPathWord_of_isBound hp
      exact .inr (.inr (Path.beginsPath hne hwords hps))
    | some x =>
      obtain ⟨params, trailing⟩ := x
      rw [binderTrees, Binder.trees, List.append_assoc, List.append_assoc] at hbs
      obtain ⟨ws, rs, rfl, hws, -⟩ := Spelled.append_iff.1 hbs
      obtain ⟨pos, rfl⟩ := Spelled.word_iff.1 hws
      exact .inr (.inl ⟨pos, _, rfl⟩)

/-- A bound begins as a bound may begin. -/
theorem beginsBound_of {b : Bound} (hb : b.isWritten) (hus : Spelled b.trees us) (allowConst : Bool)
    (vs : List Tree) : beginsBound allowConst (us ++ vs) = true := by
  cases b with
  | lifetime name =>
    obtain ⟨pos, rfl⟩ := Spelled.tick_iff.1 hus
    rfl
  | trait inParens maybe b p =>
    cases inParens with
    | false =>
      rcases begins_trait hb.1 hus with ⟨joint, pos, ws, rfl⟩ | ⟨pos, ws, rfl⟩ | hpath
      · cases joint <;> rfl
      · rfl
      · cases hpath <;> rfl
    | true =>
      obtain ⟨ws, opened, closed, rfl, -⟩ := Spelled.within_iff.1 hus
      rfl
  | capture | verbatim => cases hb

/-- What begins a bound begins with no sign but a colon or a question mark. -/
theorem peekOp_beginsBound (h : beginsBound false us = true) {text : String} {c : Char}
    (htext : text.toList = [c]) (hc : c ≠ ':' ∧ c ≠ '?') : peekOp text us = false := by
  match us with
  | [] => cases h
  | .leaf (.ident _) _ :: _ | .leaf (.lifetime _) _ :: _ | .leaf (.literal _) _ :: _
  | .group _ _ _ _ :: _ =>
    unfold peekOp
    rw [htext]
    rfl
  | .leaf (.punct t joint) _ :: _ =>
    have ht : t = ":" ∨ t = "?" := by
      cases joint <;>
        simp [beginsBound, peekAnyWord, peekOp, peekPunctChars, peekLifetime, peekGroup] at h <;>
        tauto
    unfold peekOp
    rw [htext]
    refine beq_false_of_ne fun heq => ?_
    have hsingle : ':' ≠ c ∧ '?' ≠ c := ⟨hc.1.symm, hc.2.symm⟩
    rcases ht with rfl | rfl
    · exact hsingle.1 (by simpa using congrArg String.toList heq)
    · exact hsingle.2 (by simpa using congrArg String.toList heq)

theorem Bound.sizes_pos {b : Bound} (hb : b.isWritten) (hus : Spelled b.trees us) :
    0 < sizes b.trees := by
  have hbegins := beginsBound_of hb hus false []
  rw [← spelled_sizes hus]
  cases us with
  | nil => cases hbegins
  | cons u us => cases u <;> simp only [sizes, size] <;> omega

theorem takes_boundWith {b : Bound} (hb : b.isWritten) {allowCapture allowConst : Bool}
    (hd : sizes b.trees ≤ d) (he : sizes b.trees ≤ e) (hus : Spelled b.trees us)
    (hvs : endsPhrase false vs) :
    Takes ((ofDepth d).boundWith ((ofDepth d).paths e) allowCapture allowConst) (us ++ vs) vs b := by
  have hpos := Bound.sizes_pos hb hus
  obtain ⟨e, rfl⟩ : ∃ n, e = n + 1 := ⟨e - 1, by omega⟩
  cases b with
  | lifetime name =>
    obtain ⟨pos, rfl⟩ := Spelled.tick_iff.1 hus
    unfold boundWith
    exact Takes.rest.bind (Takes.get fun c hc => .ifTrue rfl (Takes.lifetime.bind .pure))
  | trait inParens maybe b p =>
    obtain ⟨hp, hargs, hbinder⟩ := hb
    have hle : sizes p.trees ≤ sizes (Bound.trait inParens maybe b p).trees := by
      rw [Bound.trees]
      cases inParens <;> simp <;> omega
    have htrait {ts ws : List Tree}
        (hts : Spelled (when maybe (op "?") ++ binderTrees b ++ p.trees) ts)
        (hws : endsPhrase false ws) :
        Takes ((ofDepth d).traitBound ((ofDepth d).paths (e + 1)) allowConst) (ts ++ ws) ws
          (some (.trait false maybe b p)) :=
      takes_traitBound hbinder hp hargs (by omega) (by omega) hts hws
    unfold boundWith
    refine Takes.rest.bind (Takes.get fun c hc => ?_)
    cases inParens with
    | false =>
      have hbegins : peekLifetime (us ++ vs) = false ∧ peekWord "use" (us ++ vs) = false ∧
          peekGroup .paren (us ++ vs) = false := by
        rcases begins_trait hp hus with ⟨joint, pos, ws, rfl⟩ | ⟨pos, ws, rfl⟩ | hpath
        · exact ⟨rfl, rfl, rfl⟩
        · exact ⟨rfl, rfl, rfl⟩
        · have := hpath.append vs
          exact ⟨this.peekLifetime, this.peekWord rfl, this.peekGroup _⟩
      refine .ifFalse hbegins.1 (.ifFalse hbegins.2.1 (.ifFalse hbegins.2.2 ?_))
      exact (htrait hus hvs).bind .pure
    | true =>
      obtain ⟨ws, opened, closed, rfl, hws⟩ := Spelled.within_iff.1 hus
      have hend : endsPhrase false [] := rfl
      have hinside := htrait hws hend
      rw [List.append_nil] at hinside
      exact .ifFalse rfl (.ifFalse rfl (.ifTrue rfl ((Takes.within hinside).bind .pure)))
  | capture | verbatim => cases hb

/-- A bound where a phrase begins, which is read at its own depth. -/
theorem takes_bound {b : Bound} (hb : b.isWritten) (allowCapture allowConst : Bool)
    (hd : sizes b.trees ≤ d) (hus : Spelled b.trees us) (hvs : endsPhrase false vs) :
    Takes ((ofDepth d).bound allowCapture allowConst) (us ++ vs) vs b := by
  have hsizes : sizes b.trees ≤ sizes (us ++ vs) := by
    rw [sizes_append, spelled_sizes hus]
    omega
  intro scope stray
  exact takes_boundWith hb hd hsizes hus hvs scope stray

/-! ## Sums of bounds -/

theorem beginsBound_bounds {bs : List Bound} (hbs : ∀ b ∈ bs, b.isWritten) (hne : bs ≠ [])
    (hus : Spelled (separated "+" false (bs.map Bound.trees)) us) (allowConst : Bool)
    (vs : List Tree) : beginsBound allowConst (us ++ vs) = true := by
  cases bs with
  | nil => exact absurd rfl hne
  | cons b bs =>
    rw [List.map_cons, separated_cons] at hus
    obtain ⟨ts, rs, rfl, hts, -⟩ := Spelled.append_iff.1 hus
    rw [List.append_assoc]
    exact beginsBound_of (hbs b (.head _)) hts allowConst _

theorem takes_bounds {bs : List Bound} (hbs : ∀ b ∈ bs, b.isWritten) (hne : bs ≠ [])
    {allowPlus allowCapture allowConst : Bool} (hplus : allowPlus = true ∨ bs.length = 1)
    (hd : ∀ b ∈ bs, sizes b.trees ≤ d)
    (hus : Spelled (separated "+" false (bs.map Bound.trees)) us) (hvs : endsPhrase allowPlus vs)
    {fuel : Nat} (hfuel : bs.length < fuel) :
    Takes ((ofDepth d).bounds allowPlus allowCapture allowConst fuel) (us ++ vs) vs
      (bs, false) := by
  have hlast : (allowPlus && peekOp "+" vs) = false := by
    cases allowPlus with
    | false => rfl
    | true => exact (endsPhrase_iff.1 hvs).2.2.2.2.1 rfl
  induction bs generalizing us fuel with
  | nil => exact absurd rfl hne
  | cons b bs ih =>
    obtain ⟨fuel, rfl⟩ := Nat.exists_eq_add_one_of_ne_zero (Nat.ne_zero_of_lt hfuel)
    have hb := hbs b (.head _)
    cases bs with
    | nil =>
      rw [List.map_singleton, separated_singleton] at hus
      have htakes := takes_bound hb allowCapture allowConst (hd b (.head _)) hus
        (endsPhrase_single hvs)
      exact htakes.bind (Takes.test.bind (.ifTrue (by simp [hlast]) .pure))
    | cons c bs =>
      obtain rfl : allowPlus = true := hplus.resolve_right (by simp)
      obtain ⟨ts, joint, pos, rs, rfl, hts, hrs⟩ := Spelled.separated_more (c := '+') rfl hus
      have hmore := ih (fun x hx => hbs x (.tail _ hx)) (List.cons_ne_nil _ _) (.inl rfl)
        (fun x hx => hd x (.tail _ hx)) hrs (by simpa using hfuel)
      have hend : endsPhrase false (.leaf (.punct "+" joint) pos :: (rs ++ vs)) := endsPhrase_plus
      have htakes := takes_bound hb allowCapture allowConst (hd b (.head _)) hts hend
      have hbegins := beginsBound_bounds (fun x hx => hbs x (.tail _ hx)) (List.cons_ne_nil _ _) hrs
        allowConst vs
      rw [List.append_assoc, List.cons_append]
      refine htakes.bind (Takes.test.bind (.ifFalse rfl ((Takes.op rfl).bind ?_)))
      change Takes _ (rs ++ vs) _ _
      exact Takes.test.bind (.ifFalse (by simp [hbegins]) (hmore.bind .pure))

end Grammar

end WrapperGen.Source
