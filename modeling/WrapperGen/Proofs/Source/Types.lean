import WrapperGen.Proofs.Source.Paths
import WrapperGen.Source.Parse
/-!
# Types that are read back
-/

namespace WrapperGen.Source

open Tree Grammar

/-- Whether a type is over before the trees. -/
def endsType : List Tree → Bool
  | [] => true
  | .leaf (.punct t false) _ :: _ => t == "," || t == ">"
  | _ => false

theorem endsType_cases {us : List Tree} (h : endsType us) :
    us = [] ∨ (∃ pos vs, us = .leaf (.punct "," false) pos :: vs) ∨
      ∃ pos vs, us = .leaf (.punct ">" false) pos :: vs := by
  unfold endsType at h
  split at h
  · exact .inl rfl
  · simp only [Bool.or_eq_true, beq_iff_eq] at h
    rcases h with rfl | rfl
    · exact .inr (.inl ⟨_, _, rfl⟩)
    · exact .inr (.inr ⟨_, _, rfl⟩)
  · cases h

/-- Whether the trees may begin a type: they begin neither another kind of argument nor the end of
all arguments, and they are neither `mut` nor the dots that stand for further parameters. -/
def opensType (ts : List Tree) : Bool :=
  !(peekLifetime ts || peekLit ts || peekGroup .brace ts || peekOp ">" ts || peekOp "..." ts ||
    peekWord "mut" ts)

theorem opensType_eq {ts : List Tree} (h : opensType ts) :
    peekLifetime ts = false ∧ (peekLit ts || peekGroup .brace ts) = false ∧ peekOp ">" ts = false ∧
      peekOp "..." ts = false ∧ peekWord "mut" ts = false := by
  simpa [opensType, and_assoc] using h

/-- A type that is read back where a type may stand: as an argument and as the type of a
parameter. -/
structure Ty.IsRead (t : Ty) : Prop where
  begins : ∀ us, opensType (t.trees ++ us)
  reads : ∀ ⦃d plus us⦄, endsType us → Reads ((ofDepth d).ty plus) (t.trees ++ us) us (· = t)

theorem Ty.IsRead.trees_ne_nil {t : Ty} (h : t.IsRead) : t.trees ≠ [] := by
  intro hnil
  have := h.begins (op ">")
  rw [hnil] at this
  cases this

theorem genericArgTrees_types (ts : List Ty) :
    genericArgTrees (ts.map .type) = ts.map Ty.trees := by
  induction ts with
  | nil => rfl
  | cons t ts ih => rw [List.map_cons, genericArgTrees, ih, GenericArg.trees, List.map_cons]

namespace Grammar

variable {g : Grammar} {inner : PathGrammar} {us : List Tree} {d : Nat}

theorem reads_binderHere_none {ts : List Tree} (h : peekWord "for" ts = false) :
    Reads g.binderHere? ts ts (· = none) :=
  .bind (.andThen .rest (.pure trivial)) fun _ (_ : True) =>
    Reads.test.andThen (.ifFalse h (.pure rfl))

theorem reads_genericArg {t : Ty} (ht : t.IsRead) (hus : endsType us) :
    Reads ((ofDepth d).genericArg inner) (t.trees ++ us) us (· = .type t) := by
  obtain ⟨hlifetime, hconst, -, -⟩ := opensType_eq (ht.begins us)
  have hmore : peekOp "=" us = false ∧ peekOp ":" us = false := by
    rcases endsType_cases hus with rfl | ⟨_, _, rfl⟩ | ⟨_, _, rfl⟩ <;> exact ⟨rfl, rfl⟩
  unfold genericArg
  refine Reads.rest.andThen (.ifFalse (by rw [hlifetime]; rfl) (.ifFalse hconst ?_))
  refine (ht.reads hus).andThen ?_
  split
  · split
    · exact .pure rfl
    · refine (Reads.op?_none hmore.1).andThen ((Reads.op?_none hmore.2).andThen (.pure rfl))
  · exact .pure rfl

theorem reads_argList {ts : List Ty} (hts : ∀ t ∈ ts, t.IsRead) {fuel : Nat}
    (hfuel : ts.length < fuel) :
    Reads (angleArgs.argList (ofDepth d) inner fuel)
      (separated "," false (ts.map Ty.trees) ++ (op ">" ++ us)) (op ">" ++ us)
      fun as => as.map (·.1) = ts.map .type ∧ as.getLast?.all (!·.2) := by
  induction ts generalizing fuel with
  | nil =>
    obtain ⟨fuel, rfl⟩ := Nat.exists_eq_add_one_of_ne_zero (Nat.ne_zero_of_lt hfuel)
    exact Reads.test.andThen (.ifTrue rfl (.pure ⟨rfl, rfl⟩))
  | cons t ts ih =>
    obtain ⟨fuel, rfl⟩ := Nat.exists_eq_add_one_of_ne_zero (Nat.ne_zero_of_lt hfuel)
    have ht : t.IsRead := hts t (.head _)
    cases ts with
    | nil =>
      rw [List.map_singleton, separated_singleton]
      refine Reads.test.andThen (.ifFalse (opensType_eq (ht.begins _)).2.2.1
        ((reads_genericArg ht rfl).andThen ?_))
      exact Reads.test.andThen (.ifTrue rfl (.pure ⟨rfl, rfl⟩))
    | cons u ts =>
      rw [List.map_cons, List.map_cons, separated_cons_cons, List.append_assoc, List.append_assoc,
        ← List.map_cons]
      refine Reads.test.andThen (.ifFalse (opensType_eq (ht.begins _)).2.2.1
        ((reads_genericArg ht rfl).andThen ?_))
      refine Reads.test.andThen (.ifFalse rfl ((Reads.op ",").andThen ?_))
      refine (ih (fun v hv => hts v (.tail _ hv)) (by simpa using hfuel)).bind ?_
      rintro as ⟨has, hlast⟩
      refine .pure ⟨by simp [has], ?_⟩
      cases as with
      | nil => cases has
      | cons a as => simpa using hlast

/-- Types among themselves keep their order. -/
theorem lifetimesFirst_types {isLifetime : GenericArg → Bool}
    (htype : ∀ t, isLifetime (.type t) = false) {as : List (GenericArg × Bool)} {ts : List Ty}
    (h : as.map (·.1) = ts.map .type) :
    lifetimesFirst isLifetime as = (ts.map .type, (as.getLast?.map (·.2)).getD false) := by
  have hno : ∀ a ∈ as, isLifetime a.1 = false := by
    intro a ha
    have hmem : a.1 ∈ ts.map GenericArg.type := h ▸ List.mem_map_of_mem ha
    obtain ⟨t, -, ht⟩ := List.mem_map.1 hmem
    rw [← ht, htype]
  have hlifetimes : as.filter (fun a => isLifetime a.1) = [] :=
    List.filter_eq_nil_iff.2 fun a ha => by simp [hno a ha]
  have hothers : as.filter (fun a => !isLifetime a.1) = as :=
    List.filter_eq_self.2 fun a ha => by simp [hno a ha]
  unfold lifetimesFirst
  rw [hlifetimes, hothers, List.nil_append, ← h]

/-- Types between angle brackets. -/
theorem reads_angleArgs {turbofish : Bool} {ts : List Ty} (hts : ∀ t ∈ ts, t.IsRead) :
    Reads ((ofDepth d).angleArgs inner)
      ((Args.angle turbofish (ts.map .type) false).trees ++ us) us
      (· = .angle turbofish (ts.map .type) false) := by
  have hfuel : ts.length ≤ (separated "," false (ts.map Ty.trees)).length :=
    length_le_separated fun t ht => (hts t ht).trees_ne_nil
  rw [Args.trees, genericArgTrees_types, List.append_assoc, List.append_assoc, List.append_assoc]
  unfold angleArgs
  refine (Reads.op?_when rfl).bind ?_
  rintro o rfl
  refine (Reads.op "<").andThen (Reads.rest.andThen ?_)
  refine (reads_argList hts ?_).bind ?_
  · rw [List.length_append]
    omega
  rintro as ⟨has, hlast⟩
  refine (Reads.op ">").andThen ?_
  rw [lifetimesFirst_types (fun _ => rfl) has]
  refine .pure ?_
  cases hend : as.getLast? <;> simp_all

/-! ## Paths as types -/

theorem isSegment_applied {name : String} {ts : List Ty} (hname : isName name)
    (hts : ∀ t ∈ ts, t.IsRead) :
    (ofDepth d).IsSegment inner false ⟨name, .angle false (ts.map .type) false⟩ := by
  have htrees : Segment.trees ⟨name, .angle false (ts.map .type) false⟩ =
      word name ++ (Args.angle false (ts.map .type) false).trees := rfl
  refine ⟨⟨name, _, htrees⟩, fun us _ => ?_⟩
  rw [htrees, List.append_assoc]
  unfold segment
  refine Reads.rest.andThen (.ifFalse ?_ (.ifFalse (peekWord_name _ hname (by decide)) ?_))
  · simp (disch := decide) [peekWord_name _ hname]
  refine (Reads.name name).bind ?_
  rintro _ ⟨rfl, -⟩
  exact Reads.rest.andThen (.ifTrue rfl ((reads_angleArgs hts).andThen (.pure rfl)))

/-- A path begins with colons or with a word. -/
def Begins (p : Path) : Prop :=
  (∃ ts, p.trees = op "::" ++ ts) ∨ ∃ w ts, p.trees = word w ++ ts ∧ isPathWord w

theorem begins_cons {leading : Bool} {s : Segment} {ss : List Segment} {w : String} {ts : List Tree}
    (htrees : s.trees = word w ++ ts) (hw : isPathWord w) : Begins ⟨leading, s :: ss⟩ := by
  rw [Begins, Path.trees_cons, htrees]
  cases leading
  · exact .inr ⟨w, _, by rw [List.append_assoc]; rfl, hw⟩
  · exact .inl ⟨_, rfl⟩

theorem begins_word {leading : Bool} {s : Segment} {ss : List Segment} (hs : s.IsWord) :
    Begins ⟨leading, s :: ss⟩ := by
  have htrees : s.trees = word s.name ++ [] := by rw [hs.trees_eq, List.append_nil]
  exact begins_cons htrees hs.word

/-- A type that begins as a path does is a path. -/
theorem reads_typeWith_path {p : Path} {plus : Bool} (hbegins : Begins p)
    (hpath : Reads (g.path false) (p.trees ++ us) us (· = p)) (hbang : peekOp "!" us = false)
    (hplus : peekOp "+" us = false) :
    Reads (g.typeWith plus) (p.trees ++ us) us (· = .path p) := by
  have hangle : peekOp "<" (p.trees ++ us) = false := by
    rcases hbegins with ⟨ts, htrees⟩ | ⟨w, ts, htrees, -⟩ <;>
    · rw [htrees]
      rfl
  have htype : Reads (g.pathType plus none) (p.trees ++ us) us (· = .path p) := by
    unfold pathType qualifiedPath
    refine .andThen (Reads.test.andThen (.ifTrue (by rw [hangle]; rfl) (hpath.andThen (.pure rfl)))) ?_
    refine Reads.rest.andThen (.ifFalse (by simp [hbang]) (.ifFalse (by simp [hplus]) (.pure rfl)))
  have hroot {vs : List Tree} (hfor : peekWord "for" vs = false) (hparen : peekGroup .paren vs = false)
      (hfn : (["fn", "unsafe", "extern"].any (peekWord · vs)) = false)
      (hpath : (peekName vs || ["super", "self", "Self", "crate"].any (peekWord · vs) ||
        peekOp "::" vs || peekOp "<" vs) = true)
      (htype : Reads (g.pathType plus none) vs us (· = .path p)) :
      Reads (g.typeWith plus) vs us (· = .path p) := by
    unfold typeWith
    refine Reads.rest.andThen ((reads_binderHere_none hfor).andThen (Reads.rest.andThen ?_))
    exact Reads.get.bind fun _ _ => .ifFalse rfl (.ifFalse hparen (.ifFalse hfn (.ifTrue hpath htype)))
  rcases hbegins with ⟨ts, htrees⟩ | ⟨w, ts, htrees, hw⟩ <;>
    rw [htrees, List.append_assoc] at htype ⊢
  · exact hroot rfl rfl rfl rfl htype
  rcases isPathWord_cases hw with hname | rfl | rfl | rfl | rfl | rfl
  · refine hroot (peekWord_name _ hname (by decide)) rfl ?_ ?_ htype
    · simp (disch := decide) [peekWord_name _ hname]
    · rw [peekName_name _ hname]
      rfl
  · exact hroot rfl rfl rfl rfl htype
  · exact hroot rfl rfl rfl rfl htype
  · exact hroot rfl rfl rfl rfl htype
  -- no type begins with the word `try`
  · unfold typeWith
    refine Reads.rest.andThen ((reads_binderHere_none rfl).andThen (Reads.rest.andThen ?_))
    refine Reads.get.bind fun _ _ => ?_
    iterate 12 refine .ifFalse rfl ?_
    exact .failExpected
  · exact hroot rfl rfl rfl rfl htype

theorem opensType_path {p : Path} (h : Begins p) : opensType (p.trees ++ us) := by
  rcases h with ⟨ts, htrees⟩ | ⟨w, ts, htrees, hw⟩ <;> rw [htrees, List.append_assoc]
  · rfl
  · have hwords : (w == "true" || w == "false") = false ∧ (w == "mut") = false := by
      rcases isPathWord_cases hw with hname | rfl | rfl | rfl | rfl | rfl
      · simp (disch := decide) [isName_ne hname]
      all_goals exact ⟨rfl, rfl⟩
    have hlit : peekLit (word w ++ (ts ++ us)) = false := hwords.1
    have hmut : peekWord "mut" (word w ++ (ts ++ us)) = false := hwords.2
    unfold opensType
    rw [hlit, hmut]
    rfl

theorem begins_words {p : Path} (hp : p.IsWords) : Begins p := by
  obtain ⟨leading, _ | ⟨s, ss⟩⟩ := p
  · exact absurd rfl hp.nonempty
  · exact begins_word (hp.segments s (.head _))

end Grammar

namespace Ty

theorem isRead_path {p : Path} (hbegins : Begins p)
    (hpath : ∀ ⦃d us⦄, endsPath false us → Reads ((ofDepth d).path false) (p.trees ++ us) us (· = p)) :
    (Ty.path p).IsRead where
  begins _ := opensType_path hbegins
  reads
  | 0, _, _, _ => .failExpected
  | d + 1, plus, us, hus => by
    have hends : endsPath false us ∧ peekOp "!" us = false ∧ peekOp "+" us = false := by
      rcases endsType_cases hus with rfl | ⟨_, _, rfl⟩ | ⟨_, _, rfl⟩ <;> exact ⟨rfl, rfl, rfl⟩
    exact reads_typeWith_path hbegins (hpath hends.1) hends.2.1 hends.2.2

/-- The type that a path of words names. -/
theorem isRead_words {p : Path} (hp : p.IsWords) : (Ty.path p).IsRead :=
  isRead_path (begins_words hp) fun _ _ => reads_path hp

/-- The type of a path of words and a name that is applied to types. -/
theorem isRead_applied {leading : Bool} {ss : List Segment} {name : String} {ts : List Ty}
    (hss : ∀ s ∈ ss, s.IsWord) (hname : isName name) (hts : ∀ t ∈ ts, t.IsRead) :
    (Ty.path ⟨leading, ss ++ [⟨name, .angle false (ts.map .type) false⟩]⟩).IsRead := by
  have hsegments (d : Nat) (inner : PathGrammar) :
      ∀ s ∈ ss ++ [⟨name, .angle false (ts.map .type) false⟩],
        (ofDepth d).IsSegment inner false s := by
    intro s hs
    rcases List.mem_append.1 hs with hs | hs
    · exact isSegment_word (hss s hs)
    · rw [List.mem_singleton.1 hs]
      exact isSegment_applied hname hts
  cases ss with
  | nil =>
    have hw : isPathWord name := by simp [isPathWord, hname]
    exact isRead_path (begins_cons rfl hw)
      fun d us hus => reads_path_of fun inner => reads_segments (hsegments d inner) hus
  | cons s ss =>
    exact isRead_path (begins_word (hss s (.head _)))
      fun d us hus => reads_path_of fun inner => reads_segments (hsegments d inner) hus

/-! ## References -/

theorem isRead_reference {mutable : Bool} {t : Ty} (ht : t.IsRead) :
    (Ty.reference none mutable t).IsRead where
  begins _ := rfl
  reads
  | 0, _, _, _ => .failExpected
  | d + 1, plus, us, hus => by
    have htrees : (Ty.reference none mutable t).trees ++ us =
        op "&" ++ (when mutable (word "mut") ++ (t.trees ++ us)) := by
      rw [Ty.trees]
      simp
    rw [htrees]
    change Reads ((ofDepth d).typeWith plus) _ _ _
    obtain ⟨hlifetime, -, -, -, hmut⟩ := opensType_eq (ht.begins us)
    have hnolifetime : peekLifetime (when mutable (word "mut") ++ (t.trees ++ us)) = false := by
      cases mutable
      · exact hlifetime
      · rfl
    unfold typeWith
    refine Reads.rest.andThen ((reads_binderHere_none rfl).andThen (Reads.rest.andThen ?_))
    refine Reads.get.bind fun _ _ => ?_
    iterate 7 refine .ifFalse rfl ?_
    refine .ifTrue rfl ((Reads.op "&").andThen ((Reads.lifetime?_none hnolifetime).andThen ?_))
    refine (Reads.word?_when hmut).bind ?_
    rintro o rfl
    exact (ht.reads hus).andThen (.pure rfl)

end Ty

namespace Grammar

variable {g : Grammar} {inner : PathGrammar} {us : List Tree} {d : Nat}

/-! ## Bounds -/

/-- The trait of one name as a bound, with or without parameters in parentheses. -/
theorem reads_traitBound {allowConst : Bool} {name : String} {args : Args} {ts : List Tree}
    (hname : isName name) (hts : endsPath false ts)
    (hargs : args = .none ∧ ts = us ∧ peekGroup .paren us = false ∨
      peekGroup .paren ts ∧ Reads g.parenArgs ts us (· = args)) :
    Reads (g.traitBound inner allowConst) (word name ++ ts) us
      (· = some (.trait false false none ⟨false, [⟨name, args⟩]⟩)) := by
  have hpath : Reads (g.pathWith inner false) (word name ++ ts) ts (· = .single name) := by
    have hwords : (Path.single name).IsWords := Path.isWords_single (by simp [isPathWord, hname])
    rw [← Path.trees_single]
    exact reads_pathWith hwords hts
  have hno {k : String} (hk : k ∈ keywords) : peekWord k (word name ++ ts) = false :=
    peekWord_name _ hname hk
  have hcolons : peekOp "::" ts = false := by
    simp only [endsPath, Bool.and_eq_true, Bool.not_eq_true'] at hts
    exact hts.1
  unfold traitBound binder?
  refine Reads.andThen (a := none) (Reads.test.andThen (.ifFalse (hno (by decide)) (.pure rfl))) ?_
  refine Reads.rest.andThen (Reads.get.bind fun _ _ => .ifFalse rfl (.ifFalse (hno (by decide)) ?_))
  refine Reads.andThen (a := false) (.pure rfl) ((Reads.op?_none rfl).andThen ?_)
  refine Reads.andThen (a := none) (.pure rfl) (hpath.andThen (Reads.rest.andThen ?_))
  rcases hargs with ⟨rfl, rfl, hparen⟩ | ⟨hparen, hread⟩
  · exact .ifFalse (by simp [hparen, hcolons]) (.andThen (.pure rfl) (.pure rfl))
  · refine .ifTrue (by rw [hparen]; rfl) ((Reads.op?_none hcolons).andThen (hread.andThen ?_))
    exact .andThen (.pure rfl) (.pure rfl)

theorem reads_bound {allowCapture allowConst : Bool} {name : String} {args : Args} {ts : List Tree}
    (hname : isName name) (hts : endsPath false ts)
    (hargs : args = .none ∧ ts = us ∧ peekGroup .paren us = false ∨
      peekGroup .paren ts ∧ Reads g.parenArgs ts us (· = args)) :
    Reads (g.bound allowCapture allowConst) (word name ++ ts) us
      (· = .trait false false none ⟨false, [⟨name, args⟩]⟩) := by
  have hwith (inner : PathGrammar) :
      Reads (g.boundWith inner allowCapture allowConst) (word name ++ ts) us
        (· = .trait false false none ⟨false, [⟨name, args⟩]⟩) := by
    unfold boundWith
    refine Reads.rest.andThen (Reads.get.bind fun _ _ => .ifFalse rfl ?_)
    refine .ifFalse (peekWord_name _ hname (by decide)) (.ifFalse rfl ?_)
    exact (reads_traitBound hname hts hargs).andThen (.pure rfl)
  unfold bound Grammar.inner
  exact .bind (.andThen .rest (.pure rfl)) fun _ heq => heq ▸ hwith _

/-- One bound alone. -/
theorem reads_bounds {allowPlus allowCapture allowConst : Bool} {b : Bound} {ts : List Tree}
    {fuel : Nat} (hb : Reads (g.bound allowCapture allowConst) ts us (· = b))
    (hplus : peekOp "+" us = false) :
    Reads (g.bounds allowPlus allowCapture allowConst (fuel + 1)) ts us (· = ([b], false)) := by
  unfold bounds
  exact hb.andThen (Reads.test.andThen (.ifTrue (by simp [hplus]) (.pure rfl)))

theorem endsType_bound (h : endsType us) :
    endsPath false us ∧ peekGroup .paren us = false ∧ peekOp "+" us = false := by
  rcases endsType_cases h with rfl | ⟨_, _, rfl⟩ | ⟨_, _, rfl⟩ <;> exact ⟨rfl, rfl, rfl⟩

end Grammar

namespace Ty

theorem boundTrees_single (b : Bound) : separated "+" false (boundTrees [b]) = b.trees := by
  rw [boundTrees, boundTrees, separated_singleton]

theorem boundTrees_trait (name : String) (args : Args) :
    (Bound.trait false false none ⟨false, [⟨name, args⟩]⟩).trees = word name ++ args.trees := by
  have hpath : Path.trees ⟨false, [⟨name, args⟩]⟩ = word name ++ args.trees := by
    rw [Path.trees_cons, Segment.trees]
    simp [when]
  rw [Bound.trees, hpath]
  rfl

theorem trees_dyn (name : String) :
    (Ty.traitObject true [.trait false false none (.single name)] false).trees =
      word "dyn" ++ word name := by
  rw [Ty.trees, boundTrees_single, Path.single, Segment.plain, boundTrees_trait, Args.trees,
    List.append_nil]
  rfl

/-- The objects of a trait of one name. -/
theorem isRead_dyn {name : String} (hname : isName name) :
    (Ty.traitObject true [.trait false false none (.single name)] false).IsRead where
  begins us := by
    rw [trees_dyn]
    rfl
  reads
  | 0, _, _, _ => .failExpected
  | d + 1, plus, us, hus => by
    obtain ⟨hpath, hparen, hplus⟩ := endsType_bound hus
    have hbound : Reads ((ofDepth d).bound false false) (word name ++ us) us
        (· = .trait false false none (.single name)) :=
      reads_bound hname hpath (.inl ⟨rfl, rfl, hparen⟩)
    have hobject (pos : Pos) : Reads ((ofDepth d).objectBounds pos plus) (word name ++ us) us
        (· = ([.trait false false none (.single name)], false)) := by
      unfold objectBounds
      refine Reads.rest.andThen ((reads_bounds hbound hplus).andThen ?_)
      exact .ifTrue rfl (.pure rfl)
    rw [trees_dyn, List.append_assoc]
    change Reads ((ofDepth d).typeWith plus) _ _ _
    unfold typeWith
    refine Reads.rest.andThen ((reads_binderHere_none rfl).andThen (Reads.rest.andThen ?_))
    refine Reads.get.bind fun _ _ => ?_
    iterate 4 refine .ifFalse rfl ?_
    refine .ifTrue rfl ((Reads.word "dyn").andThen ((Reads.op?_none rfl).andThen ?_))
    exact (hobject _).andThen (.pure rfl)

/-- Anything that can be called once with one argument. -/
def onceOf (t : Ty) : Ty :=
  .implTrait [.trait false false none ⟨false, [⟨"FnOnce", .paren [t] false none⟩]⟩] false

theorem trees_onceOf (t : Ty) :
    (onceOf t).trees = word "impl" ++ (word "FnOnce" ++ within .paren t.trees) := by
  have hargs : (Args.paren [t] false none).trees = within .paren t.trees := by
    rw [Args.trees, tyTrees, tyTrees, separated_singleton, outputTrees, List.append_nil]
  rw [onceOf, Ty.trees, boundTrees_single, boundTrees_trait, hargs]

theorem isRead_onceOf {t : Ty} (ht : t.IsRead) : (onceOf t).IsRead where
  begins us := by
    rw [trees_onceOf]
    rfl
  reads
  | 0, _, _, _ => .failExpected
  | d + 1, plus, us, hus => by
    have hends : peekOp "->" us = false ∧ peekOp "+" us = false := by
      rcases endsType_cases hus with rfl | ⟨_, _, rfl⟩ | ⟨_, _, rfl⟩ <;> exact ⟨rfl, rfl⟩
    have hlist : Reads (Reader.commaList ((ofDepth d).ty true)) t.trees [] (· = ([t], false)) := by
      rw [← separated_singleton "," t.trees, ← List.map_singleton]
      refine Reads.commaList (F := fun us => endsType us) rfl (fun _ => rfl) fun u hu us hus => ?_
      rw [List.mem_singleton.1 hu]
      exact ⟨ht.trees_ne_nil, ht.reads hus⟩
    have hargs : Reads (ofDepth d).parenArgs (within .paren t.trees ++ us) us
        (· = .paren [t] false none) := by
      unfold parenArgs output
      refine (Reads.within hlist).andThen (.andThen (a := none) ?_ (.pure rfl))
      exact Reads.test.andThen (.ifFalse hends.1 (.pure rfl))
    have hbound : Reads ((ofDepth d).bound true true)
        (word "FnOnce" ++ (within .paren t.trees ++ us)) us
        (· = .trait false false none ⟨false, [⟨"FnOnce", .paren [t] false none⟩]⟩) :=
      reads_bound (by decide) rfl (.inr ⟨rfl, hargs⟩)
    rw [trees_onceOf, List.append_assoc, List.append_assoc]
    change Reads ((ofDepth d).typeWith plus) _ _ _
    unfold typeWith
    refine Reads.rest.andThen ((reads_binderHere_none rfl).andThen (Reads.rest.andThen ?_))
    refine Reads.get.bind fun _ _ => ?_
    iterate 9 refine .ifFalse rfl ?_
    refine .ifTrue rfl ((Reads.word "impl").andThen (Reads.rest.andThen ?_))
    exact (reads_bounds hbound hends.2).andThen (.ifTrue rfl (.pure rfl))

end Ty

end WrapperGen.Source
