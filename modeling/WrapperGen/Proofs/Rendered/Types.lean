import WrapperGen.Proofs.Rendered.Arguments
import WrapperGen.Proofs.Source.Built
/-!
# Spelled types

Each way to write a type is taken off its tokens if what it is made of is. From this, by induction,
every type that is formed as types are read and is plain is read from any spelling of its tokens.
-/

namespace WrapperGen.Source

open Tree Grammar

/-! ## Lengths -/

namespace Grammar

variable {g : Grammar} {struct : Bool} {us vs : List Tree} {n : Node}

/-- An operand that is all there is is the whole expression. -/
theorem takes_exprWith (hhash : peekOp "#" us = false) (hamp : peekOp "&" us = false)
    (hsigns : (peekOp "*" us || peekOp "!" us || peekOp "-" us) = false)
    (hatom : Takes (g.atom g.unary struct) us [] n) : Takes (g.exprWith struct) us [] n := by
  have htrailers : Takes (g.trailers 1 n) [] [] n :=
    Takes.rest.bind (.ifFalse rfl (.ifFalse rfl (.ifFalse rfl (.ifFalse rfl .pure))))
  have hunary : Takes (g.unaryWith struct) us [] n := by
    unfold unaryWith
    refine (Takes.manyWhile_nil hhash).bind (Takes.rest.bind (.ifFalse hamp (.ifFalse hsigns ?_)))
    exact hatom.bind (Takes.rest.bind (htrailers.bind .pure))
  unfold exprWith
  refine hunary.bind ?_
  unfold climbHere climbWith
  refine Takes.rest.bind (Takes.rest.bind ?_)
  by_cases hrange : n.isRange
  · exact .ifTrue hrange .pure
  · refine .ifFalse (by simpa using hrange) ?_
    exact .ifFalse rfl (.ifFalse rfl (.ifFalse rfl .pure))

theorem takes_pathHere {p : Path} {style : Bool}
    (h : Takes (g.pathWith (g.paths (sizes us)) style) us vs p) : Takes (g.path style) us vs p :=
  fun scope stray => h scope stray

theorem takes_binderHere_none (hus : peekWord "for" us = false) :
    Takes g.binderHere? us us none :=
  Takes.bind (Takes.rest.bind .pure) (Takes.test.bind (.ifFalse hus .pure))

/-- A path of words as an expression. -/
theorem takes_pathExpr {p : Path} (hp : p.isFormed) (hplain : p.isPlain)
    (hus : Spelled p.trees us) : Takes (g.pathExpr struct) us [] (.path p) := by
  have hangle : (!peekOp "<" us) = true := by
    cases Path.beginsPath_of_isFormed hp hus <;> rfl
  rw [Path.isFormed_iff] at hp
  have hpath (inner : PathGrammar) : Takes (g.pathWith inner true) us [] p := by
    have hend : endsPath true [] := rfl
    have hss (s : Segment) (hs : s ∈ p.segments) : g.TakesSegment inner true s := by
      have hword := Segment.isPathWord_of_isFormed (hp.2 s hs)
      have hnone := List.all_eq_true.1 hplain s hs
      obtain ⟨name, args⟩ := s
      cases args with
      | none => exact takesSegment_word hword
      | angle | paren => cases hnone
    have htakes := takes_pathWith hp.1 hss hus hend
    rwa [List.append_nil] at htakes
  unfold pathExpr qualifiedPath
  refine Takes.bind (a := .inl p)
    (Takes.test.bind (.ifTrue hangle ((takes_pathHere (hpath _)).bind .pure))) ?_
  refine Takes.test.bind (.ifFalse ?_ (Takes.test.bind (.ifFalse ?_ .pure)))
  · exact Bool.and_false _
  · exact Bool.and_false _

/-- An operand that begins as a path is a path. -/
theorem takes_atom_path {p : Path} (hp : p.isFormed) (hopens : p.opensType) (hplain : p.isPlain)
    (hus : Spelled p.trees us) : Takes (g.atom g.unary struct) us [] (.path p) := by
  have htakes : Takes (g.pathExpr struct) us [] (.path p) := takes_pathExpr hp hplain hus
  have htry := Path.peekTry hopens hus
  unfold atom
  refine Takes.rest.bind ?_
  cases Path.beginsPath_of_isFormed hp hus with
  | colons => exact .ifFalse rfl (.ifFalse rfl (.ifFalse rfl (.ifFalse rfl (.ifTrue rfl htakes))))
  | @word w pos ws hw =>
    rcases isPathWord_cases hw with hname | rfl | rfl | rfl | rfl | rfl
    · have hno {k : String} (hk : k ∈ keywords) : peekWord k (.leaf (.ident w) pos :: ws) = false :=
        peekWord_name ws hname hk
      have hlit : peekLit (.leaf (.ident w) pos :: ws) = false := by
        change (w == "true" || w == "false") = false
        simp (disch := decide) [isName_ne hname]
      have hbar : peekOp "|" (.leaf (.ident w) pos :: ws) = false := rfl
      refine .ifFalse hlit ?_
      refine .ifFalse (by simp (disch := decide) [hno]) ?_
      refine .ifFalse (by simp (disch := decide) [hno]) ?_
      refine .ifFalse (by simp (disch := decide) [hno, hbar]) ?_
      exact .ifTrue (by simp [peekName, hname]) htakes
    · exact .ifFalse rfl (.ifFalse rfl (.ifFalse rfl (.ifFalse rfl (.ifTrue rfl htakes))))
    · exact .ifFalse rfl (.ifFalse rfl (.ifFalse rfl (.ifFalse rfl (.ifTrue rfl htakes))))
    · exact .ifFalse rfl (.ifFalse rfl (.ifFalse rfl (.ifFalse rfl (.ifTrue rfl htakes))))
    · cases htry
    · exact .ifFalse rfl (.ifFalse rfl (.ifFalse rfl (.ifFalse rfl (.ifTrue rfl htakes))))

/-- A length is a literal or a path of words. -/
theorem takes_length {d : Nat}
    (hn : (Phrase.isPlainLiteral n ∧ n.trees.length = 1) ∨ Phrase.isPlainPath n)
    (hus : Spelled n.trees us) : Takes ((ofDepth (d + 1)).expr true) us [] n := by
  change Takes ((ofDepth d).exprWith true) us [] n
  rcases hn with ⟨hliteral, hone⟩ | hpath
  · obtain ⟨hlit, htakes⟩ := takes_literal hliteral hus []
    rw [List.append_nil] at hlit htakes
    have hatom : Takes ((ofDepth d).atom (ofDepth d).unary true) us [] n :=
      Takes.rest.bind (.ifTrue hlit htakes)
    rcases trees_plainLiteral hliteral with ⟨text, -, rfl, htrees⟩ | ⟨digits, rfl, -, htrees⟩ | rfl | rfl
    · rw [htrees] at hus
      obtain ⟨pos, rfl⟩ := Spelled.lit_iff.1 hus
      exact takes_exprWith rfl rfl rfl hatom
    · rw [htrees] at hone
      cases hone
    · obtain ⟨pos, rfl⟩ := Spelled.word_iff.1 hus
      exact takes_exprWith rfl rfl rfl hatom
    · obtain ⟨pos, rfl⟩ := Spelled.word_iff.1 hus
      exact takes_exprWith rfl rfl rfl hatom
  · match n, hpath with
    | .path p, hpath =>
      simp only [Phrase.isPlainPath, Bool.and_eq_true] at hpath
      obtain ⟨⟨hp, hplain⟩, hopens⟩ := hpath
      have hbegins := Path.beginsPath_of_isFormed hp hus
      refine takes_exprWith ?_ ?_ ?_ (takes_atom_path hp hopens hplain hus)
      all_goals cases hbegins <;> rfl

end Grammar

/-! ## Types with a sign of their own -/

/-- Whether a tree begins neither a path nor a type in angle brackets. -/
def Tree.isOwnSign : Tree → Bool
  | .leaf (.ident w) _ => !(isName w || w == "_" || w == "self")
  | .leaf (.punct t _) _ => t != "<" && t != ":"
  | _ => true

namespace Ty

variable {t : Ty}

/-- The reader of types, at the depth that the tokens of the type ask for. -/
theorem ReadsBack.of_typeWith (hbegins : BeginsType t.trees)
    (hless : ∀ ⦃us⦄ vs, Spelled t.trees us → peekOp "<=" (us ++ vs) = false)
    (hcolon : ∀ ⦃us⦄ vs, Spelled t.trees us → peekOp "::" t.trees = false →
      peekOp ":" (us ++ vs) = false)
    (hunnamed : ∀ ⦃us vs⦄, Spelled t.trees us → Takes.Separates List.isEmpty "," vs →
      opensParam (us ++ vs) = false)
    (h : ∀ ⦃d plus us vs⦄, sizes t.trees ≤ d + 1 → Spelled t.trees us → endsPhrase plus vs →
      (plus = true ∨ t.isSingle = true) → Takes ((ofDepth d).typeWith plus) (us ++ vs) vs t) :
    t.ReadsBack where
  begins := hbegins
  notLess := hless
  noColon := hcolon
  unnamed := hunnamed
  takes
  | 0, _, _, _, hd, _, _, _ => by
    obtain ⟨x, xs, htrees, -⟩ := hbegins
    rw [htrees, sizes] at hd
    cases x <;> simp [size] at hd
  | _ + 1, _, _, _, hd, hus, hvs, hplus => h hd hus hvs hplus

/-- A type that begins with a sign of its own. -/
theorem ReadsBack.of_sign {x : Tree} {xs : List Tree} (htrees : t.trees = x :: xs) (hopens : x.opensTy)
    (hown : x.isOwnSign)
    (h : ∀ ⦃d plus us vs⦄, sizes t.trees ≤ d + 1 → Spelled t.trees us → endsPhrase plus vs →
      (plus = true ∨ t.isSingle = true) → Takes ((ofDepth d).typeWith plus) (us ++ vs) vs t) :
    t.ReadsBack := by
  have hhead {us : List Tree} (vs : List Tree) (hus : Spelled t.trees us) :
      peekOp "<=" (us ++ vs) = false ∧ peekOp ":" (us ++ vs) = false ∧
        opensParam (us ++ vs) = false := by
    rw [htrees] at hus
    cases hus with
    | cons hspells _ =>
      cases hspells with
      | group => exact ⟨rfl, rfl, rfl⟩
      | @leaf token _ _ hword =>
        cases token with
        | punct => exact absurd rfl (hword _ _)
        | lifetime | literal => exact ⟨rfl, rfl, rfl⟩
        | ident w =>
          have hno : isName w = false ∧ (w == "_") = false ∧ (w == "self") = false := by
            simpa [isOwnSign, and_assoc] using hown
          exact ⟨rfl, rfl, by simp [opensParam, peekName, peekWord, hno]⟩
      | @punct text joint joint' =>
        have hne : (text == String.singleton '<') = false ∧ (text == String.singleton ':') = false := by
          simpa [isOwnSign] using hown
        refine ⟨?_, hne.2, rfl⟩
        cases joint' with
        | false => rfl
        | true =>
          change (text == String.singleton '<' && _) = false
          rw [hne.1, Bool.false_and]
  exact .of_typeWith ⟨x, xs, htrees, hopens⟩ (fun us vs hus => (hhead vs hus).1)
    (fun us vs hus _ => (hhead vs hus).2.1) (fun us vs hus _ => (hhead vs hus).2.2) h

/-! ## Brackets -/

variable {e : Ty}

theorem readsBack_slice (he : e.ReadsBack) : (slice e).ReadsBack := by
  refine .of_sign rfl rfl rfl fun d plus us vs hd hus _ _ => ?_
  obtain ⟨ws, opened, closed, rfl, hws⟩ := Spelled.within_iff.1 hus
  rw [Ty.trees, sizes_within] at hd
  have hend : endsPhrase true [] := rfl
  have hinside := he.takes (d := d) (by omega) hws hend (.inl rfl)
  rw [List.append_nil] at hinside
  unfold typeWith
  refine Takes.rest.bind ((takes_binderHere_none rfl).bind (Takes.rest.bind (Takes.get fun c _ => ?_)))
  iterate 5 refine .ifFalse rfl ?_
  exact .ifTrue rfl (Takes.within (hinside.bind (Takes.test.bind (.ifFalse rfl .pure))))

theorem readsBack_array {n : Node} (he : e.ReadsBack)
    (hn : (Phrase.isPlainLiteral n ∧ n.trees.length = 1) ∨ Phrase.isPlainPath n) :
    (array e n).ReadsBack := by
  refine .of_sign rfl rfl rfl fun d plus us vs hd hus _ _ => ?_
  obtain ⟨ws, opened, closed, rfl, hws⟩ := Spelled.within_iff.1 hus
  obtain ⟨fs, ns, rfl, hfs, hns⟩ := Spelled.append_iff.1 hws
  obtain ⟨es, ss, rfl, hes, hss⟩ := Spelled.append_iff.1 hfs
  obtain ⟨joint, pos, rfl⟩ := Spelled.sign (c := ';') rfl hss
  rw [Ty.trees, sizes_within, sizes_append, sizes_append] at hd
  have hend : endsPhrase true (.leaf (.punct ";" joint) pos :: ns) := endsPhrase_sign (by decide)
  have helem := he.takes (d := d) (by omega) hes hend (.inl rfl)
  obtain ⟨d, rfl⟩ : ∃ n, d = n + 1 := ⟨d - 1, by omega⟩
  have hlength := takes_length (d := d) hn hns
  unfold typeWith
  refine Takes.rest.bind ((takes_binderHere_none rfl).bind (Takes.rest.bind (Takes.get fun c _ => ?_)))
  iterate 5 refine .ifFalse rfl ?_
  refine .ifTrue rfl (Takes.within ?_)
  rw [List.append_assoc]
  exact helem.bind (Takes.test.bind (.ifTrue rfl ((Takes.op rfl).bind (hlength.bind .pure))))

theorem readsBack_paren (he : e.ReadsBack) : (paren e).ReadsBack := by
  refine .of_sign rfl rfl rfl fun d plus us vs hd hus hvs _ => ?_
  obtain ⟨ws, opened, closed, rfl, hws⟩ := Spelled.within_iff.1 hus
  rw [Ty.trees, sizes_within] at hd
  have hend : endsPhrase true [] := rfl
  have hinside := he.takes (d := d) (by omega) hws hend (.inl rfl)
  have hbegins := he.begins_spelled hws []
  rw [List.append_nil] at hinside hbegins
  have hcontent : Takes (ofDepth d).parenContent ws [] (.single e) := by
    unfold parenContent
    refine Takes.rest.bind (.ifFalse ?_ (.ifFalse hbegins.peekLifetime (.ifFalse ?_ ?_)))
    · exact List.isEmpty_eq_false_iff.2 hbegins.ne_nil
    · exact hbegins.peekOp (c := '?') rfl (by decide)
    · exact hinside.bind (Takes.test.bind (.ifTrue rfl .pure))
  have hplus : (plus && peekOp "+" vs) = false := by
    cases plus with
    | false => rfl
    | true => exact (endsPhrase_iff.1 hvs).2.2.2.2.1 rfl
  unfold typeWith
  refine Takes.rest.bind ((takes_binderHere_none rfl).bind (Takes.rest.bind (Takes.get fun c _ => ?_)))
  refine .ifFalse rfl (.ifTrue rfl ?_)
  unfold parenType
  refine (Takes.within hcontent).bind ?_
  dsimp only
  split
  · exact Takes.test.bind (.ifFalse hplus .pure)
  · exact .pure

theorem readsBack_tuple {es : List Ty} {trailing : Bool} (hes : ∀ e ∈ es, e.ReadsBack)
    (hnone : es = [] → trailing = false) (hone : es.length = 1 → trailing = true) :
    (tuple es trailing).ReadsBack := by
  refine .of_sign rfl rfl rfl fun d plus us vs hd hus hvs _ => ?_
  obtain ⟨ws, opened, closed, rfl, hws⟩ := Spelled.within_iff.1 hus
  rw [Ty.trees, sizes_within] at hd
  have hcomma : (trailing || es.length == 1) = trailing := by
    by_cases hlength : es.length = 1
    · rw [hone hlength]
      rfl
    · simp [hlength]
  rw [hcomma] at hd hws
  have hcontent : Takes (ofDepth d).parenContent ws []
      (if es.isEmpty then .unit else .tuple es trailing) := by
    unfold parenContent
    cases es with
    | nil =>
      cases hws
      exact Takes.rest.bind (.ifTrue rfl .pure)
    | cons e es =>
      -- the first type has a comma, and behind it is a list of its own
      obtain ⟨more, hsplit, hmore⟩ : ∃ more, separated "," trailing (tyTrees (e :: es)) =
          e.trees ++ (op "," ++ separated "," more (tyTrees es)) ∧
            (es = [] → more = false) ∧ (more || es.isEmpty) = trailing := by
        cases es with
        | nil => exact ⟨false, by rw [hone rfl]; rfl, fun _ => rfl, (hone rfl).symm⟩
        | cons f es =>
          refine ⟨trailing, ?_, fun h => absurd h (List.cons_ne_nil f es), by simp⟩
          rw [tyTrees, tyTrees, separated_cons_cons, List.append_assoc]
      rw [hsplit] at hd hws
      rw [sizes_append, sizes_append] at hd
      obtain ⟨fs, rs, rfl, hfs, hrs⟩ := Spelled.append_iff.1 hws
      obtain ⟨cs, rs, rfl, hcs, hlist⟩ := Spelled.append_iff.1 hrs
      obtain ⟨joint, pos, rfl⟩ := Spelled.sign (c := ',') rfl hcs
      have he := hes e (.head _)
      have hbegins := he.begins_spelled hfs (.leaf (.punct "," joint) pos :: rs)
      have hend : endsPhrase true (.leaf (.punct "," joint) pos :: rs) := endsPhrase_sign (by decide)
      have htakes := takes_tys (d := d) (fun t ht => hes t (.tail _ ht)) hmore.1 (by omega) hlist
      refine Takes.rest.bind (.ifFalse ?_ (.ifFalse hbegins.peekLifetime (.ifFalse ?_ ?_)))
      · exact List.isEmpty_eq_false_iff.2 hbegins.ne_nil
      · exact hbegins.peekOp (c := '?') rfl (by decide)
      · refine (he.takes (by omega) hfs hend (.inl rfl)).bind (Takes.test.bind (.ifFalse rfl ?_))
        refine (Takes.op rfl).bind (htakes.bind ?_)
        rw [← hmore.2]
        exact .pure
  unfold typeWith
  refine Takes.rest.bind ((takes_binderHere_none rfl).bind (Takes.rest.bind (Takes.get fun c _ => ?_)))
  refine .ifFalse rfl (.ifTrue rfl ?_)
  unfold parenType
  refine (Takes.within hcontent).bind ?_
  cases es with
  | nil =>
    rw [hnone rfl]
    exact .pure
  | cons => exact .pure

/-! ## Signs and words -/

theorem readsBack_never : never.ReadsBack := by
  refine .of_sign rfl rfl rfl fun d plus us vs _ hus _ _ => ?_
  obtain ⟨joint, pos, rfl⟩ := Spelled.sign (c := '!') rfl hus
  unfold typeWith
  refine Takes.rest.bind ((takes_binderHere_none rfl).bind (Takes.rest.bind (Takes.get fun c _ => ?_)))
  iterate 3 refine .ifFalse rfl ?_
  refine .ifFalse (by cases joint <;> rfl) ?_
  iterate 4 refine .ifFalse rfl ?_
  exact .ifTrue rfl ((Takes.op rfl).bind .pure)

theorem readsBack_infer : infer.ReadsBack := by
  refine .of_typeWith ⟨_, _, rfl, rfl⟩ (fun us vs hus => ?_) (fun us vs hus _ => ?_)
    (fun us vs hus hvs => ?_) ?_
  · obtain ⟨pos, rfl⟩ := Spelled.word_iff.1 hus
    rfl
  · obtain ⟨pos, rfl⟩ := Spelled.word_iff.1 hus
    rfl
  · obtain ⟨pos, rfl⟩ := Spelled.word_iff.1 hus
    rcases hvs with hvs | ⟨joint, pos', ws, rfl⟩
    · cases List.isEmpty_iff.1 hvs
      rfl
    · rfl
  · intro d plus us vs _ hus _ _
    obtain ⟨pos, rfl⟩ := Spelled.word_iff.1 hus
    unfold typeWith
    refine Takes.rest.bind ((takes_binderHere_none rfl).bind (Takes.rest.bind (Takes.get fun c _ => ?_)))
    iterate 10 refine .ifFalse rfl ?_
    exact .ifTrue rfl (Takes.word.bind .pure)

theorem readsBack_pointer {mutable : Bool} (he : e.ReadsBack) (hsingle : e.isSingle) :
    (pointer mutable e).ReadsBack := by
  refine .of_sign rfl rfl rfl fun d plus us vs hd hus hvs _ => ?_
  rw [Ty.trees, sizes_append, sizes_append, sizes_word] at hd
  obtain ⟨fs, es, rfl, hfs, hes⟩ := Spelled.append_iff.1 hus
  obtain ⟨ss, ws, rfl, hss, hws⟩ := Spelled.append_iff.1 hfs
  obtain ⟨joint, pos, rfl⟩ := Spelled.sign (c := '*') rfl hss
  obtain ⟨pos', rfl⟩ := Spelled.word_iff.1 hws
  have hend : endsPhrase false vs := endsPhrase_single hvs
  have helem := he.takes (d := d) (by omega) hes hend (.inr hsingle)
  unfold typeWith
  refine Takes.rest.bind ((takes_binderHere_none rfl).bind (Takes.rest.bind (Takes.get fun c _ => ?_)))
  iterate 3 refine .ifFalse rfl ?_
  refine .ifFalse (by cases joint <;> rfl) ?_
  iterate 2 refine .ifFalse rfl ?_
  refine .ifTrue rfl ((Takes.op rfl).bind (Takes.rest.bind ?_))
  cases mutable with
  | false => exact .ifTrue rfl (Takes.word.bind (helem.bind .pure))
  | true => exact .ifFalse rfl (.ifTrue rfl (Takes.word.bind (helem.bind .pure)))

theorem readsBack_reference {lifetime : Option String} {mutable : Bool} (he : e.ReadsBack)
    (hsingle : e.isSingle) : (reference lifetime mutable e).ReadsBack := by
  refine .of_sign (by rw [Ty.trees]; rfl) rfl rfl fun d plus us vs hd hus hvs _ => ?_
  rw [Ty.trees] at hd hus
  simp only [sizes_append] at hd
  obtain ⟨gs, es, rfl, hgs, hes⟩ := Spelled.append_iff.1 hus
  obtain ⟨fs, ms, rfl, hfs, hms⟩ := Spelled.append_iff.1 hgs
  obtain ⟨ss, ls, rfl, hss, hls⟩ := Spelled.append_iff.1 hfs
  obtain ⟨joint, pos, rfl⟩ := Spelled.sign (c := '&') rfl hss
  have hop : sizes (op "&") = 1 := rfl
  have hend : endsPhrase false vs := endsPhrase_single hvs
  have helem := he.takes (d := d) (by omega) hes hend (.inr hsingle)
  have hbegins := he.begins_spelled hes vs
  have hmutable : ∃ o, Takes (Reader.word? "mut") (ms ++ (es ++ vs)) (es ++ vs) o ∧
      o.isSome = mutable := by
    cases mutable with
    | false =>
      cases hms
      exact ⟨none, .word?_none (hbegins.peekWord (by decide) (by decide)), rfl⟩
    | true =>
      obtain ⟨pos', rfl⟩ := Spelled.word_iff.1 hms
      exact ⟨_, .word?_some, rfl⟩
  have hlifetime : Takes Reader.lifetime? (ls ++ (ms ++ (es ++ vs))) (ms ++ (es ++ vs)) lifetime := by
    cases lifetime with
    | some name =>
      obtain ⟨pos', rfl⟩ := Spelled.tick_iff.1 hls
      exact .lifetime?_some
    | none =>
      cases hls
      refine .lifetime?_none ?_
      cases mutable with
      | false =>
        cases hms
        exact hbegins.peekLifetime
      | true =>
        obtain ⟨pos', rfl⟩ := Spelled.word_iff.1 hms
        rfl
  obtain ⟨o, hmutable, rfl⟩ := hmutable
  simp only [List.append_assoc, List.cons_append, List.nil_append]
  unfold typeWith
  refine Takes.rest.bind ((takes_binderHere_none rfl).bind (Takes.rest.bind (Takes.get fun c _ => ?_)))
  iterate 3 refine .ifFalse rfl ?_
  refine .ifFalse (by cases joint <;> rfl) ?_
  iterate 3 refine .ifFalse rfl ?_
  refine .ifTrue rfl ((Takes.op rfl).bind (hlifetime.bind (hmutable.bind ?_)))
  exact helem.bind .pure

/-! ## Sums of bounds -/

/-- Bounds are as many as their tokens at most. -/
theorem length_bounds {bs : List Bound} (hbs : ∀ b ∈ bs, b.isWritten) {us : List Tree}
    (hus : Spelled (separated "+" false (bs.map Bound.trees)) us) : bs.length ≤ us.length := by
  refine hus.length_separated fun b hb hnil => ?_
  have hpos := Bound.sizes_pos (hbs b hb) (Spelled.refl _)
  rw [hnil] at hpos
  cases hpos

/-- One of the bounds is a trait, however that is asked. -/
theorem any_isTrait {bs : List Bound} (h : bs.any Bound.isTrait) : bs ≠ [] ∧
    ∀ f : Bound → Bool, (∀ inParens maybe b p, f (.trait inParens maybe b p) = true) →
      bs.any f = true := by
  obtain ⟨b, hb, htrait⟩ := List.any_eq_true.1 h
  refine ⟨List.ne_nil_of_mem hb, fun f hf => List.any_eq_true.2 ⟨b, hb, ?_⟩⟩
  cases b with
  | trait => exact hf _ _ _ _
  | lifetime | capture | verbatim => cases htrait

section Bounds

variable {bs : List Bound} {d : Nat} {plus : Bool} {us vs : List Tree}

theorem takes_sum (hbs : ∀ b ∈ bs, b.isWritten) (hne : bs ≠ []) (allowCapture allowConst : Bool)
    (hplus : plus = true ∨ bs.length = 1)
    (hd : sizes (separated "+" false (bs.map Bound.trees)) ≤ d)
    (hus : Spelled (separated "+" false (bs.map Bound.trees)) us) (hvs : endsPhrase plus vs) :
    Takes ((ofDepth d).bounds plus allowCapture allowConst ((us ++ vs).length + 1)) (us ++ vs) vs
      (bs, false) := by
  have hlength := length_bounds hbs hus
  refine takes_bounds hbs hne hplus (fun b hb => ?_) hus hvs ?_
  · exact Nat.le_trans (sizes_le_separated (List.mem_map_of_mem hb)) hd
  · rw [List.length_append]
    omega

theorem isSingle_bounds (hsingle : plus = true ∨ (bs.length == 1 && !false) = true) :
    plus = true ∨ bs.length = 1 := by
  simpa using hsingle

theorem readsBack_dyn (hbs : ∀ b ∈ bs, b.isWritten) (htrait : bs.any Bound.isTrait) :
    (traitObject true bs false).ReadsBack := by
  refine .of_sign (by rw [Ty.trees]; rfl) rfl rfl fun d plus us vs hd hus hvs hsingle => ?_
  rw [Ty.trees, boundTrees_eq] at hd hus
  obtain ⟨ws, ss, rfl, hws, hss⟩ := Spelled.append_iff.1 hus
  obtain ⟨pos, rfl⟩ := Spelled.word_iff.1 hws
  have hword : sizes (when true (word "dyn")) = 1 := rfl
  rw [sizes_append, hword] at hd
  obtain ⟨hne, htrait⟩ := any_isTrait htrait
  have hsum := takes_sum (d := d) hbs hne false false (isSingle_bounds hsingle) (by omega) hss hvs
  have hstar : peekOp "*" (ss ++ vs) = false :=
    peekOp_beginsBound (beginsBound_bounds hbs hne hss false vs) (c := '*') rfl (by decide)
  unfold typeWith
  refine Takes.rest.bind ((takes_binderHere_none rfl).bind (Takes.rest.bind (Takes.get fun c _ => ?_)))
  iterate 4 refine .ifFalse rfl ?_
  refine .ifTrue rfl (Takes.word.bind ((Takes.op?_none hstar).bind ?_))
  unfold objectBounds
  exact Takes.bind (Takes.rest.bind (hsum.bind (.ifTrue (htrait _ fun _ _ _ _ => rfl) .pure))) .pure

theorem readsBack_impl (hbs : ∀ b ∈ bs, b.isWritten) (htrait : bs.any Bound.isTrait) :
    (implTrait bs false).ReadsBack := by
  refine .of_sign (by rw [Ty.trees]; rfl) rfl rfl fun d plus us vs hd hus hvs hsingle => ?_
  rw [Ty.trees, boundTrees_eq] at hd hus
  obtain ⟨ws, ss, rfl, hws, hss⟩ := Spelled.append_iff.1 hus
  obtain ⟨pos, rfl⟩ := Spelled.word_iff.1 hws
  rw [sizes_append, sizes_word] at hd
  obtain ⟨hne, htrait⟩ := any_isTrait htrait
  have hsum := takes_sum (d := d) hbs hne true true (isSingle_bounds hsingle) (by omega) hss hvs
  unfold typeWith
  refine Takes.rest.bind ((takes_binderHere_none rfl).bind (Takes.rest.bind (Takes.get fun c _ => ?_)))
  iterate 9 refine .ifFalse rfl ?_
  refine .ifTrue rfl (Takes.word.bind (Takes.rest.bind (hsum.bind (.ifTrue ?_ .pure))))
  exact htrait _ fun _ _ _ _ => rfl

end Bounds

/-! ## Paths -/

/-- What begins as a path and as a type is read as a path. -/
theorem takes_typeWith_path {g : Grammar} {plus : Bool} {us vs : List Tree} {t : Ty}
    (hpath : BeginsPath us) (htype : BeginsType us) (h : Takes (g.pathType plus none) us vs t) :
    Takes (g.typeWith plus) us vs t := by
  have hopen (hfor : peekWord "for" us = false) (hparen : peekGroup .paren us = false)
      (hfn : (["fn", "unsafe", "extern"].any (peekWord · us)) = false)
      (hpath : (peekName us || ["super", "self", "Self", "crate"].any (peekWord · us) ||
        peekOp "::" us || peekOp "<" us) = true) : Takes (g.typeWith plus) us vs t := by
    unfold typeWith
    refine Takes.rest.bind ((takes_binderHere_none hfor).bind (Takes.rest.bind (Takes.get fun c _ => ?_)))
    exact .ifFalse rfl (.ifFalse hparen (.ifFalse hfn (.ifTrue hpath h)))
  have htry := htype.peekWord (w := "try") (by decide) (by decide)
  cases hpath with
  | colons => exact hopen rfl rfl rfl rfl
  | @word w pos ws hw =>
    rcases isPathWord_cases hw with hname | rfl | rfl | rfl | rfl | rfl
    · have hno {k : String} (hk : k ∈ keywords) : peekWord k (.leaf (.ident w) pos :: ws) = false :=
        peekWord_name ws hname hk
      refine hopen (hno (by decide)) rfl ?_ ?_
      · simp (disch := decide) [hno]
      · simp [peekName, hname]
    · exact hopen rfl rfl rfl rfl
    · exact hopen rfl rfl rfl rfl
    · exact hopen rfl rfl rfl rfl
    · cases htry
    · exact hopen rfl rfl rfl rfl

/-- After the first word of a path comes no single colon. -/
theorem unnamed_path {p : Path} (hp : p.isFormed) {us vs : List Tree} (hus : Spelled p.trees us)
    (hvs : Takes.Separates List.isEmpty "," vs) : opensParam (us ++ vs) = false := by
  have hstop : peekOp ":" vs = false := by
    rcases hvs with hvs | ⟨joint, pos, ws, rfl⟩
    · cases List.isEmpty_iff.1 hvs
      rfl
    · rfl
  obtain ⟨leading, _ | ⟨s, ss⟩⟩ := p
  · cases hp
  have hs : s.isFormed := (Path.isFormed_iff.1 hp).2 s (.head _)
  rw [Path.trees_cons] at hus
  obtain ⟨cs, ws, rfl, hcs, hws⟩ := Spelled.append_iff.1 hus
  obtain ⟨fs, rs, rfl, hfs, hrs⟩ := Spelled.append_iff.1 hws
  cases leading with
  | true =>
    obtain ⟨joint, pos, pos', rfl⟩ := Spelled.colons hcs
    rfl
  | false =>
    cases hcs
    obtain ⟨pos, as, rfl, has⟩ := hfs.segment
    have hafter : (peekOp ":" (as ++ (rs ++ vs)) && !peekOp "::" (as ++ (rs ++ vs))) = false := by
      obtain ⟨name, args⟩ := s
      cases args with
      | none =>
        cases has
        cases ss with
        | nil =>
          cases hrs
          change (peekOp ":" vs && _) = false
          rw [hstop, Bool.false_and]
        | cons t ss =>
          obtain ⟨gs, xs, rfl, hgs, -⟩ := Spelled.append_iff.1 hrs
          obtain ⟨joint, pos', pos'', ts, rfl, -⟩ := Spelled.further hgs
          rfl
      | angle turbofish as trailing =>
        rw [Args.trees, List.append_assoc, List.append_assoc] at has
        obtain ⟨gs, xs, rfl, hgs, hxs⟩ := Spelled.append_iff.1 has
        cases turbofish with
        | true =>
          obtain ⟨joint, pos', pos'', rfl⟩ := Spelled.colons hgs
          rfl
        | false =>
          cases hgs
          obtain ⟨os, ys, rfl, hos, -⟩ := Spelled.append_iff.1 hxs
          obtain ⟨joint, pos', rfl⟩ := Spelled.sign (c := '<') rfl hos
          rfl
      | paren => simp [Segment.isFormed] at hs
    simp only [List.append_assoc, List.cons_append, List.nil_append]
    change (_ && peekOp ":" (as ++ (rs ++ vs)) && !peekOp "::" (as ++ (rs ++ vs))) = false
    rw [Bool.and_assoc, hafter, Bool.and_false]

theorem readsBack_path {p : Path} (hp : p.isFormed) (hopens : p.opensType)
    (hargs : ∀ s ∈ p.segments, s.args.ReadsBack) : (path p).ReadsBack := by
  have hbegins {us : List Tree} (hus : Spelled p.trees us) : BeginsPath us :=
    Path.beginsPath_of_isFormed hp hus
  have htype {us : List Tree} (hus : Spelled p.trees us) : BeginsType us :=
    (hbegins hus).beginsType (Path.peekTry hopens hus)
  refine .of_typeWith (htype (Spelled.refl _)) (fun us vs hus => ((hbegins hus).append vs).peekAngle.2)
    (fun us vs hus hcolon => (hbegins (Spelled.refl _)).noColon hcolon hus vs)
    (fun us vs hus hvs => unnamed_path hp hus hvs) (fun d plus us vs hd hus hvs _ => ?_)
  rw [Ty.trees] at hd hus
  have hsizes : sizes p.trees ≤ sizes (us ++ vs) := by
    rw [sizes_append, spelled_sizes hus]
    omega
  have hends := endsPhrase_iff.1 hvs
  have hstart := (hbegins hus).append vs
  have hpath := takes_pathHere (takes_path hp hargs hd (Nat.le_succ_of_le hsizes) hus
    (endsPath_of_endsPhrase hvs))
  refine takes_typeWith_path hstart ((htype hus).append vs) ?_
  unfold pathType qualifiedPath
  refine Takes.bind (a := .inl p) (Takes.test.bind (.ifTrue ?_ (hpath.bind .pure))) ?_
  · rw [hstart.peekAngle.1]
    rfl
  · refine Takes.rest.bind (.ifFalse ?_ (.ifFalse ?_ .pure))
    · rw [hends.2.2.1]
      rfl
    · cases plus with
      | false => rfl
      | true => exact hends.2.2.2.2.1 rfl

/-! ## Types in angle brackets -/

section Projection

variable {d : Nat} {us vs : List Tree} {s : Segment} {ss : List Segment}

/-- What comes after a type in angle brackets. -/
theorem takes_projected {β : Type} {k : Segment → List Segment → Reader β} {ws : List Tree} {b : β}
    (hss : ∀ t ∈ s :: ss, t.isFormed ∧ t.args.ReadsBack)
    (hd : sizes ((s :: ss).flatMap (op "::" ++ ·.trees)) ≤ d + 1)
    (hus : Spelled ((s :: ss).flatMap (op "::" ++ ·.trees)) us) (hvs : endsPath false vs)
    (hk : Takes (k s ss) vs ws b) :
    Takes (do
      let _ ← Reader.op "::"
      let inner ← (ofDepth d).inner
      let first ← (ofDepth d).segment inner false
      let more ← Reader.manyWhile (peekOp "::") do
        let _ ← Reader.op "::"
        (ofDepth d).segment inner false
      k first more) (us ++ vs) ws b := by
  rw [List.flatMap_cons] at hus
  obtain ⟨fs, rs, rfl, hfs, hrs⟩ := Spelled.append_iff.1 hus
  obtain ⟨joint, pos, pos', ts, rfl, hts⟩ := Spelled.further hfs
  have hsegments : ∀ t ∈ s :: ss,
      (ofDepth d).TakesSegment ((ofDepth d).paths (sizes (ts ++ (rs ++ vs)) + 1)) false t := by
    have htrees : Path.trees ⟨false, s :: ss⟩ = s.trees ++ ss.flatMap (op "::" ++ ·.trees) :=
      Path.trees_cons false s ss
    rw [List.flatMap_cons, sizes_append, sizes_append] at hd
    intro t ht
    refine takesSegment_of_readsBack (p := ⟨false, s :: ss⟩) ht (hss t ht).1 (hss t ht).2 ?_ ?_
    · rw [htrees, sizes_append]
      omega
    · rw [htrees, sizes_append, sizes_append, sizes_append, spelled_sizes hts, spelled_sizes hrs]
      omega
  have hstop : peekOp "::" vs = false := by
    simp only [endsPath, Bool.and_eq_true, Bool.not_eq_true'] at hvs
    exact hvs.1
  have hmore := takesAll_segments (fun _ _ _ _ _ _ => by rfl) hstop
    (fun t ht => hsegments t (.tail _ ht)) hrs hvs
  have hfirst := hsegments s (.head _) hts (opensArgs_more hrs hvs)
  rw [List.append_assoc]
  refine (Takes.op rfl).bind (Takes.bind (Takes.rest.bind .pure) ?_)
  exact hfirst.bind (hmore.bind hk)

/-- The trees of a type in angle brackets, and what comes after them. -/
theorem projectionTrees_eq {self : List Tree} {position : Nat} {leading : Bool}
    (hleading : position = 0 → leading = true) :
    projectionTrees self position leading (segmentTrees (s :: ss)) = op "<" ++ (self ++
      ((if position = 0 then []
        else word "as" ++ Path.trees ⟨leading, (s :: ss).take position⟩) ++ (op ">" ++
      ((s :: ss).drop position).flatMap (op "::" ++ ·.trees)))) := by
  unfold projectionTrees
  by_cases hzero : position = 0
  · subst hzero
    rw [hleading rfl, if_pos rfl, if_pos rfl, segmentTrees_eq, List.map_cons, separated_cons,
      List.flatMap_map, List.drop_zero, List.flatMap_cons]
    simp [when]
  · rw [if_neg hzero, if_neg hzero, Path.trees, segmentTrees_eq, segmentTrees_eq, List.map_take,
      ← List.map_drop, List.flatMap_map]
    simp

variable {self : Ty} {position : Nat} {leading : Bool}

/-- A type in angle brackets begins with the bracket, and no equals sign comes after it. -/
theorem begins_projection (hself : self.ReadsBack) (hleading : position = 0 → leading = true)
    (hus : Spelled (projection self position ⟨leading, s :: ss⟩).trees us) (vs : List Tree) :
    ∃ joint pos ws, us ++ vs = .leaf (.punct "<" joint) pos :: ws ∧ peekOp "=" ws = false := by
  rw [show (projection self position ⟨leading, s :: ss⟩).trees = _ from
    projectionTrees_eq hleading] at hus
  obtain ⟨os, ws, rfl, hos, hws⟩ := Spelled.append_iff.1 hus
  obtain ⟨es, xs, rfl, hes, -⟩ := Spelled.append_iff.1 hws
  obtain ⟨joint, pos, rfl⟩ := Spelled.sign (c := '<') rfl hos
  refine ⟨joint, pos, es ++ (xs ++ vs), by simp, ?_⟩
  exact (hself.begins_spelled hes _).peekOp (c := '=') rfl (by decide)

/-- The type in the brackets and the path are read together. -/
theorem takes_qualifiedPath {plus : Bool} (hself : self.ReadsBack)
    (hp : (Path.mk leading (s :: ss)).isFormed) (hargs : ∀ t ∈ s :: ss, t.args.ReadsBack)
    (hposition : position < (s :: ss).length) (hleading : position = 0 → leading = true)
    (hd : sizes (projection self position ⟨leading, s :: ss⟩).trees ≤ d + 1)
    (hus : Spelled (projection self position ⟨leading, s :: ss⟩).trees us)
    (hvs : endsPhrase plus vs) :
    Takes ((ofDepth d).qualifiedPath false) (us ++ vs) vs
      (.inr (self, position, ⟨leading, s :: ss⟩)) := by
  have htrees : (projection self position ⟨leading, s :: ss⟩).trees = _ :=
    projectionTrees_eq hleading
  rw [htrees] at hd hus
  simp only [sizes_append] at hd
  have hangle : sizes (op "<") = 1 := rfl
  obtain ⟨os, ws, rfl, hos, hws⟩ := Spelled.append_iff.1 hus
  obtain ⟨joint, pos, rfl⟩ := Spelled.sign (c := '<') rfl hos
  obtain ⟨es, xs, rfl, hes, hxs⟩ := Spelled.append_iff.1 hws
  obtain ⟨as, ys, rfl, has, hys⟩ := Spelled.append_iff.1 hxs
  obtain ⟨cs, zs, rfl, hcs, hzs⟩ := Spelled.append_iff.1 hys
  obtain ⟨joint', pos', rfl⟩ := Spelled.sign (c := '>') rfl hcs
  have hss : ∀ t ∈ s :: ss, t.isFormed := (Path.isFormed_iff.1 hp).2
  obtain ⟨t, ts, hdrop⟩ := List.exists_cons_of_ne_nil (l := (s :: ss).drop position) (by
    rw [Ne, List.drop_eq_nil_iff]
    exact Nat.not_le.2 hposition)
  have hafter : ∀ x ∈ t :: ts, x.isFormed ∧ x.args.ReadsBack := by
    intro x hx
    have hmem := List.mem_of_mem_drop (hdrop ▸ hx)
    exact ⟨hss x hmem, hargs x hmem⟩
  rw [hdrop] at hzs hd
  have hends : endsPath false vs := endsPath_of_endsPhrase hvs
  simp only [List.append_assoc, List.cons_append, List.nil_append]
  unfold qualifiedPath
  by_cases hzero : position = 0
  · subst hzero
    rw [if_pos rfl] at has hd
    cases has
    cases hdrop
    cases hleading rfl
    have hend : endsPhrase true (.leaf (.punct ">" joint') pos' :: (zs ++ vs)) :=
      endsPhrase_sign (by decide)
    refine Takes.test.bind (.ifFalse rfl ((Takes.op rfl).bind ?_))
    refine (hself.takes (by omega) hes hend (.inl rfl)).bind (Takes.test.bind (.ifFalse rfl ?_))
    refine Takes.pure.bind ((Takes.op rfl).bind ?_)
    exact takes_projected hafter (by omega) hzs hends .pure
  · rw [if_neg hzero] at has hd
    obtain ⟨ws, ps, rfl, hws, hps⟩ := Spelled.append_iff.1 has
    obtain ⟨pos'', rfl⟩ := Spelled.word_iff.1 hws
    rw [sizes_append, sizes_word] at hd
    have hend : endsPhrase true (.leaf (.ident "as") pos'' ::
        (ps ++ .leaf (.punct ">" joint') pos' :: (zs ++ vs))) := rfl
    have hformed : (Path.mk leading ((s :: ss).take position)).isFormed := by
      refine Path.isFormed_iff.2 ⟨?_, fun x hx => hss x (List.mem_of_mem_take hx)⟩
      simp [hzero]
    have hclosing : endsPath false (.leaf (.punct ">" joint') pos' :: (zs ++ vs)) := by
      cases joint' <;> rfl
    have hpath := takes_path (d := d)
      (e := sizes (ps ++ .leaf (.punct ">" joint') pos' :: (zs ++ vs))) hformed
      (fun x hx => hargs x (List.mem_of_mem_take hx)) (by omega)
      (by rw [sizes_append, spelled_sizes hps]; omega) hps hclosing
    refine Takes.test.bind (.ifFalse rfl ((Takes.op rfl).bind ?_))
    refine (hself.takes (by omega) hes hend (.inl rfl)).bind (Takes.test.bind (.ifTrue rfl ?_))
    refine Takes.word.bind ((Takes.map some (takes_pathHere hpath)).bind ((Takes.op rfl).bind ?_))
    refine takes_projected hafter (by omega) hzs hends ?_
    have hlength : ((s :: ss).take position).length = position :=
      List.length_take_of_le (Nat.le_of_lt hposition)
    have hwhole : (s :: ss).take position ++ t :: ts = s :: ss := by
      rw [← hdrop]
      exact List.take_append_drop position (s :: ss)
    dsimp only
    rw [hlength, hwhole]
    exact .pure

theorem readsBack_projection {p : Path} (hself : self.ReadsBack) (hp : p.isFormed)
    (hargs : ∀ s ∈ p.segments, s.args.ReadsBack) (hposition : position < p.segments.length)
    (hleading : position = 0 → p.leading = true) : (projection self position p).ReadsBack := by
  obtain ⟨leading, _ | ⟨s, ss⟩⟩ := p
  · cases hp
  refine .of_typeWith ?_ (fun us vs hus => ?_) (fun us vs hus _ => ?_) (fun us vs hus _ => ?_)
    (fun d plus us vs hd hus hvs _ => ?_)
  · rw [show (projection self position ⟨leading, s :: ss⟩).trees = _ from
      projectionTrees_eq hleading]
    exact ⟨_, _, rfl, rfl⟩
  · obtain ⟨joint, pos, ws, heq, hws⟩ := begins_projection hself hleading hus vs
    rw [heq]
    cases joint with
    | false => rfl
    | true => exact hws
  · obtain ⟨joint, pos, ws, heq, -⟩ := begins_projection hself hleading hus vs
    rw [heq]
    rfl
  · obtain ⟨joint, pos, ws, heq, -⟩ := begins_projection hself hleading hus vs
    rw [heq]
    rfl
  have hqualified := takes_qualifiedPath hself hp hargs hposition hleading hd hus hvs
  obtain ⟨joint, pos, ws, heq, -⟩ := begins_projection hself hleading hus vs
  rw [heq] at hqualified ⊢
  unfold typeWith
  refine Takes.rest.bind ((takes_binderHere_none rfl).bind (Takes.rest.bind (Takes.get fun c _ => ?_)))
  iterate 3 refine .ifFalse rfl ?_
  refine .ifTrue (by cases joint <;> rfl) ?_
  unfold pathType
  exact hqualified.bind .pure

end Projection

end Ty

end WrapperGen.Source
