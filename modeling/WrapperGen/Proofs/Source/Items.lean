import WrapperGen.Proofs.Source.Blocks
/-!
# Functions and items that are read back

What is between the parentheses of a function and what is in its braces stay open here: a function
is read as far as its name, and the parameters and the body come in as what their readers make of
them. The same holds of the members of traits and implementations.
-/

namespace WrapperGen.Source

open Tree Grammar

/-! ## Signatures -/

/-- A signature without qualifiers, type parameters and result. -/
def Signature.plain (name : String) (inputs : List FnInput × Bool × List Node) : Signature :=
  ⟨false, false, false, none, name, .none, inputs.1, inputs.2.1, inputs.2.2, none⟩

theorem Signature.trees_plain (name : String) (inputs : List FnInput) :
    (plain name (inputs, false, [])).trees =
      word "fn" ++ (word name ++
        Tree.within .paren (separated "," false (inputs.map FnInput.trees))) := by
  have hinputs : separated "," false (inputs.map FnInput.trees) ++ nodesTrees [] =
      separated "," false (inputs.map FnInput.trees) := List.append_nil _
  have hends : outputTrees none ++ Generics.none.clauseTrees = [] := rfl
  rw [Signature.trees, plain, hinputs, List.append_assoc _ (outputTrees none), hends]
  simp [when, Generics.paramTrees, Generics.none]

/-- What lies between the parentheses of a function is read with a result for which `I` holds. -/
def Inputs (ts : List Tree) (I : List FnInput × Bool × List Node → Prop) : Prop :=
  ∀ d, Gives (do (ofDepth d).fnInputs true false ((← Reader.rest).length + 1)) ts I

/-- What lies between the braces of a function is read with a result for which `B` holds. -/
def Body (ts : List Tree) (B : List Attribute × List Node → Prop) : Prop :=
  ∀ d, Gives (do
    let attrs ← (ofDepth d).innerAttributes
    return (attrs, ← (ofDepth d).statements)) ts B

theorem Node.AreStatements.isBody {ns : List Node} (h : AreStatements ns) :
    Body (nodesTrees ns) (· = ([], ns)) := by
  intro d
  have hinner : Reads (ofDepth d).innerAttributes (nodesTrees ns) (nodesTrees ns) (· = []) :=
    .manyWhile_nil (by rw [h.begins, Bool.false_and])
  apply Reads.gives
  exact hinner.andThen (h.reads.andThen (.pure rfl))

namespace Grammar

variable {g : Grammar} {d : Nat} {ts us inputs body : List Tree} {name : String}
  {I : List FnInput × Bool × List Node → Prop} {B : List Attribute × List Node → Prop}

theorem reads_abi_none (hus : peekWord "extern" us = false) : Reads abi us us (· = none) := by
  unfold abi
  exact Reads.test.andThen (.ifTrue (by rw [hus]; rfl) (.pure rfl))

theorem reads_generics_none (hus : peekOp "<" us = false) : Reads g.generics us us (· = .none) := by
  unfold generics
  exact Reads.test.andThen (.ifFalse hus (.pure rfl))

theorem reads_output_none {allowPlus : Bool} (hus : peekOp "->" us = false) :
    Reads (g.output allowPlus) us us (· = none) := by
  unfold output
  exact Reads.test.andThen (.ifFalse hus (.pure rfl))

theorem reads_whereClause_none (hus : peekWord "where" us = false) :
    Reads g.whereClause us us (· = none) := by
  unfold whereClause
  exact Reads.test.andThen (.ifTrue (by rw [hus]; rfl) (.pure rfl))

theorem reads_visibility_inherited (hus : peekWord "pub" us = false) :
    Reads visibility us us (· = .inherited) := by
  unfold visibility
  exact Reads.test.andThen (.ifTrue (by rw [hus]; rfl) (.pure rfl))

/-- A function up to the end of its signature. -/
theorem reads_signature (hinputs : Inputs inputs I) (harrow : peekOp "->" us = false)
    (hwhere : peekWord "where" us = false) :
    Reads ((ofDepth d).signature false)
      (word "fn" ++ (word name ++ (Tree.within .paren inputs ++ us))) us
      fun s => isName name ∧ ∃ a, I a ∧ s = .plain name a := by
  unfold signature
  refine (Reads.word?_none rfl).andThen ((Reads.word?_none rfl).andThen ?_)
  refine (Reads.word?_none rfl).andThen (Reads.test.andThen (.ifFalse rfl ?_))
  refine (reads_abi_none rfl).andThen ((Reads.word "fn").andThen ((Reads.name name).bind ?_))
  rintro _ ⟨rfl, hname⟩
  refine (reads_generics_none rfl).andThen ((Reads.within_of (hinputs d)).bind ?_)
  intro a ha
  refine (reads_output_none harrow).andThen ((reads_whereClause_none hwhere).andThen ?_)
  exact .pure ⟨hname, a, ha, rfl⟩

/-! ## Members -/

/-- A function of a trait that has no body. -/
theorem reads_traitMember (hinputs : Inputs inputs I) :
    Reads (ofDepth d).traitMember
      (word "fn" ++ (word name ++ (Tree.within .paren inputs ++ (op ";" ++ us)))) us
      fun m => isName name ∧ ∃ a, I a ∧ m = .method ⟨[], .inherited, .plain name a, none⟩ := by
  have hmethod : Reads ((ofDepth d).traitMethod [])
      (word "fn" ++ (word name ++ (Tree.within .paren inputs ++ (op ";" ++ us)))) us
      fun m => isName name ∧ ∃ a, I a ∧ m = .method ⟨[], .inherited, .plain name a, none⟩ := by
    unfold traitMethod
    refine (reads_outerAttributes rfl).andThen ((reads_signature hinputs rfl rfl).bind ?_)
    rintro _ ⟨hname, a, ha, rfl⟩
    refine Reads.rest.andThen (.ifFalse rfl (.ifTrue rfl ((Reads.op ";").andThen ?_)))
    exact .pure ⟨hname, a, ha, rfl⟩
  unfold traitMember
  refine (reads_outerAttributes rfl).andThen ((reads_visibility_inherited rfl).andThen ?_)
  refine (Reads.word?_none rfl).andThen (Reads.rest.andThen (.ifTrue rfl ?_))
  exact hmethod.bind fun m hm => .pure hm

/-- A function of an implementation. -/
theorem reads_implMember (hinputs : Inputs inputs I) (hbody : Body body B) :
    Reads (ofDepth d).implMember
      (word "fn" ++ (word name ++ (Tree.within .paren inputs ++ (Tree.within .brace body ++ us)))) us
      fun m => isName name ∧ ∃ a b, I a ∧ B b ∧
        m = .method ⟨b.1, .inherited, .plain name a, some b.2⟩ := by
  unfold implMember
  refine (reads_outerAttributes rfl).andThen (Reads.get.bind fun _ _ => ?_)
  refine (reads_visibility_inherited rfl).andThen (Reads.rest.andThen (.ifFalse rfl ?_))
  refine Reads.rest.andThen (.ifTrue rfl ((reads_signature hinputs rfl rfl).bind ?_))
  rintro _ ⟨hname, a, ha, rfl⟩
  refine (Reads.op?_none rfl).andThen (.ifFalse rfl ?_)
  unfold functionBody
  exact (Reads.within_of (hbody d)).bind fun b hb => .pure ⟨hname, a, b, ha, hb, rfl⟩

/-! ## Members of traits and implementations -/

variable {α : Type} {as : List α} {N : α → String} {T C : α → List Tree}
  {J : α → List FnInput × Bool × List Node → Prop} {D : α → List Attribute × List Node → Prop}

/-- The trees of a function that has no body. -/
def openTrees (name : String) (inputs : List Tree) : List Tree :=
  word "fn" ++ (word name ++ (Tree.within .paren inputs ++ op ";"))

/-- The trees of a function and its body. -/
def closedTrees (name : String) (inputs body : List Tree) : List Tree :=
  word "fn" ++ (word name ++ (Tree.within .paren inputs ++ Tree.within .brace body))

theorem reads_traitMembers (hinputs : ∀ a ∈ as, Inputs (T a) (J a)) :
    Reads (Reader.manyWhile (!·.isEmpty) (ofDepth d).traitMember)
      (as.flatMap fun a => openTrees (N a) (T a)) []
      (List.Forall₂ (fun a m => isName (N a) ∧ ∃ b, J a b ∧
        m = .method ⟨[], .inherited, .plain (N a) b, none⟩) as) := by
  rw [← List.append_nil (as.flatMap _)]
  refine .many (.forall₂ (.ends rfl) (fun a bs h => ?_) fun a _ => List.cons_ne_nil _ _)
  refine .goes rfl ?_
  simpa [openTrees] using reads_traitMember (hinputs a (h.subset (.head _)))

theorem reads_implMembers (hinputs : ∀ a ∈ as, Inputs (T a) (J a))
    (hbody : ∀ a ∈ as, Body (C a) (D a)) :
    Reads (Reader.manyWhile (!·.isEmpty) (ofDepth d).implMember)
      (as.flatMap fun a => closedTrees (N a) (T a) (C a)) []
      (List.Forall₂ (fun a m => isName (N a) ∧ ∃ b c, J a b ∧ D a c ∧
        m = .method ⟨c.1, .inherited, .plain (N a) b, some c.2⟩) as) := by
  rw [← List.append_nil (as.flatMap _)]
  refine .many (.forall₂ (.ends rfl) (fun a bs h => ?_) fun a _ => List.cons_ne_nil _ _)
  refine .goes rfl ?_
  simpa [closedTrees] using
    reads_implMember (hinputs a (h.subset (.head _))) (hbody a (h.subset (.head _)))

/-! ## Attributes and visibility -/

/-- An attribute that gives a text in quotes to a name. -/
def labelled (name text : String) : Attribute :=
  ⟨.single name, [.op "=", .token (.literal text)]⟩

theorem labelled_trees {text : String} (htext : text.toList.head? = some '"') :
    (labelled name text).trees =
      op "#" ++ Tree.within .bracket (word name ++ (op "=" ++ lit text)) := by
  have hlit : (Token.literal text).trees = lit text := by
    rw [Token.trees]
    split
    · rename_i heq
      rw [heq] at htext
      cases htext
    · rfl
  have hnodes : nodesTrees [.op "=", .token (.literal text)] = op "=" ++ lit text := by
    rw [← hlit]
    simp
    rfl
  rw [Attribute.trees, labelled, Path.trees_single, hnodes]

theorem reads_labelled {text : String} (htext : text.toList.head? = some '"')
    (hus : peekOp "#" us = false) :
    Reads g.outerAttributes ((labelled name text).trees ++ us) us (· = [labelled name text]) := by
  have hpath (ts : List Tree) (hts : peekOp "::" ts = false) :
      Reads attributePath (word name ++ ts) ts (· = .single name) := by
    unfold attributePath
    refine (Reads.op?_none rfl).andThen ((Reads.anyWord name).andThen ?_)
    exact (Reads.manyWhile_nil hts).andThen (.pure rfl)
  have hbody : Reads g.attributeBody (op "=" ++ lit text) []
      (· = [.op "=", .token (.literal text)]) := by
    unfold attributeBody
    refine Reads.rest.andThen (.ifFalse rfl (.ifTrue rfl ?_))
    have hop : Reads (Reader.op "=") (op "=" ++ lit text) (lit text) (· = .op "=") := Reads.op "="
    refine hop.andThen ((Reads.ahead?_some (fun _ _ => rfl)).bind ?_)
    rintro _ ⟨⟨_, scope, stray⟩, rfl, rfl⟩
    exact .ifTrue rfl (Reads.set.bind fun _ _ => .pure rfl)
  have hattr : Reads g.outerAttribute ((labelled name text).trees ++ us) us
      (· = labelled name text) := by
    rw [labelled_trees htext, List.append_assoc]
    unfold outerAttribute attributeGroup
    exact (Reads.op "#").andThen (.within ((hpath _ rfl).andThen (hbody.andThen (.pure rfl))))
  have hone : [labelled name text].flatMap Attribute.trees = (labelled name text).trees := by simp
  unfold outerAttributes
  rw [← hone]
  refine .many (.items (.ends hus) (fun a bs h => ?_) fun a _ h => ?_)
  · obtain ⟨rfl, rfl⟩ : a = labelled name text ∧ bs = [] := by
      simpa using List.suffix_cons_iff.1 h
    have hbegin : peekOp "#" ((labelled name text).trees ++ us) = true := by
      rw [labelled_trees htext]
      rfl
    refine (Reads.goes hbegin hattr).mono ?_
    rintro _ ⟨_, rfl, rfl⟩
    rfl
  · rw [Attribute.trees] at h
    cases h

theorem reads_visibility_pub (hparen : peekGroup .paren us = false) :
    Reads visibility (word "pub" ++ us) us (· = .pub) := by
  unfold visibility
  refine Reads.test.andThen (.ifFalse rfl ((Reads.word "pub").andThen (Reads.rest.andThen ?_)))
  split
  · cases hparen
  · exact .pure rfl

/-- A visibility is left behind with a result for which `V` holds, or it is cut short before its
parentheses. -/
def Passes (v : Visibility) (V : Visibility → Prop) : Prop :=
  ∀ ⦃us⦄, peekGroup .paren us = false → peekWord "pub" us = false →
    Reads visibility (v.trees ++ us) us V ∨
      ∃ ts, Reads visibility (v.trees ++ us) (.group .paren ts noPos noPos :: us) fun _ => True

theorem passes_any (v : Visibility) : Passes v fun _ => True := by
  intro us hparen hpub
  cases v with
  | inherited => exact .inl ((reads_visibility_inherited hpub).mono fun _ _ => trivial)
  | pub => exact .inl ((reads_visibility_pub hparen).mono fun _ _ => trivial)
  | restricted hasIn p =>
    have htrees : (Visibility.restricted hasIn p).trees ++ us =
        word "pub" ++ (.group .paren (when hasIn (word "in") ++ p.trees) noPos noPos :: us) := by
      simp [Visibility.trees, Tree.within]
    rw [htrees]
    generalize when hasIn (word "in") ++ p.trees = ts
    by_cases hroot : (["crate", "self", "super"].any (peekWord · ts)) = true
    · by_cases hlength : ts.length = 1
      · left
        unfold visibility
        refine Reads.test.andThen (.ifFalse rfl ((Reads.word "pub").andThen (Reads.rest.andThen ?_)))
        simp only [hroot, hlength, if_true]
        exact .bind (.within_of fun _ _ _ _ _ => trivial) fun _ (_ : True) => .pure trivial
      · refine .inr ⟨ts, ?_⟩
        unfold visibility
        refine Reads.test.andThen (.ifFalse rfl ((Reads.word "pub").andThen (Reads.rest.andThen ?_)))
        simp only [hroot, hlength, if_true, if_false]
        exact .pure trivial
    · by_cases hin : peekWord "in" ts = true
      · left
        unfold visibility
        refine Reads.test.andThen (.ifFalse rfl ((Reads.word "pub").andThen (Reads.rest.andThen ?_)))
        simp only [hroot, hin, if_true]
        exact .bind (.within_of fun _ _ _ _ _ => trivial) fun _ (_ : True) => .pure trivial
      · refine .inr ⟨ts, ?_⟩
        unfold visibility
        refine Reads.test.andThen (.ifFalse rfl ((Reads.word "pub").andThen (Reads.rest.andThen ?_)))
        simp only [hroot, hin]
        exact .pure trivial

/-- A word that may stand in the path of a module. -/
theorem peek_moduleWord {w : String} (us : List Tree) (hw : isPathWord w) (htry : w ≠ "try") :
    (peekName (word w ++ us) || ["super", "self", "Self", "crate"].any (peekWord · (word w ++ us))) =
      true := by
  rcases isPathWord_cases hw with hname | rfl | rfl | rfl | rfl | rfl
  · rw [peekName_name us hname, Bool.true_or]
  all_goals first | rfl | exact absurd rfl htry

/-- The path of a module, up to the end of its brackets. -/
theorem reads_modulePath {p : Path} (hp : p.IsWords) (htry : ∀ s ∈ p.segments, s.name ≠ "try") :
    Reads plainPath p.trees [] (· = p) := by
  obtain ⟨leading, _ | ⟨s, ss⟩⟩ := p
  · exact absurd rfl hp.nonempty
  have hwords : ∀ t ∈ s :: ss, t.IsWord := hp.segments
  have hmodule {t : Segment} (ht : t ∈ s :: ss) (us : List Tree) :=
    peek_moduleWord us (hwords t ht).word (htry t ht)
  have hss : ss.flatMap (op "::" ++ ·.trees) = (ss.map (·.name)).flatMap (op "::" ++ word ·) := by
    rw [List.flatMap_map]
    exact List.flatMap_congr fun t ht => by rw [(hwords t (.tail _ ht)).trees_eq]
  have hplain : ∀ t ∈ s :: ss, Segment.plain t.name = t := by
    rintro ⟨name, args⟩ ht
    cases (hwords _ ht).args
    rfl
  rw [Path.trees_cons, (hwords s (.head _)).trees_eq, hss,
    ← List.append_nil ((ss.map (·.name)).flatMap _)]
  unfold plainPath
  refine (Reads.op?_when rfl).bind ?_
  rintro o rfl
  refine Reads.test.andThen (.ifFalse (by rw [hmodule (.head _)]; rfl) ?_)
  beta_reduce
  refine (Reads.anyWord s.name).andThen (Reads.andThen (.many (.items (.ends rfl)
    (fun n ns h => ?_) fun n _ => List.cons_ne_nil _ _)) ?_)
  · obtain ⟨t, ht, rfl⟩ := List.mem_map.1 (h.subset (.head _))
    refine (Reads.goes (P := (· = t.name)) ?_ ?_).mono ?_
    · exact hmodule (.tail _ ht) _
    · rw [List.append_assoc]
      exact (Reads.op "::").andThen (Reads.anyWord t.name)
    · rintro _ ⟨_, rfl, rfl⟩
      rfl
  · refine Reads.test.andThen (.ifFalse rfl (.pure ?_))
    have hmap : ss.map (Segment.plain ∘ (·.name)) = ss :=
      (List.map_congr_left fun t ht => hplain t (.tail _ ht)).trans (List.map_id ss)
    rw [List.map_cons, hplain s (.head _), List.map_map, hmap]

end Grammar

/-- A visibility as it stands in a source: a path in parentheses consists of words. -/
inductive Visibility.IsPlain : Visibility → Prop
  | inherited : IsPlain .inherited
  | pub : IsPlain .pub
  | within {w : String} (hw : w ∈ ["crate", "self", "super"]) :
    IsPlain (.restricted false (.single w))
  | inside {p : Path} (hp : p.IsWords) (htry : ∀ s ∈ p.segments, s.name ≠ "try") :
    IsPlain (.restricted true p)

theorem Visibility.IsPlain.reads {v : Visibility} (hv : v.IsPlain) {us : List Tree}
    (hparen : peekGroup .paren us = false) (hpub : peekWord "pub" us = false) :
    Reads visibility (v.trees ++ us) us (· = v) := by
  cases hv with
  | inherited => exact reads_visibility_inherited hpub
  | pub => exact reads_visibility_pub hparen
  | @within w hw =>
    have htrees : (Visibility.restricted false (.single w)).trees ++ us =
        Tree.word "pub" ++ (Tree.within .paren (Tree.word w) ++ us) := by
      rw [Visibility.trees, Path.trees_single, List.append_assoc]
      rfl
    rw [htrees]
    unfold Grammar.visibility
    refine Reads.test.andThen (.ifFalse rfl ((Reads.word "pub").andThen (Reads.rest.andThen ?_)))
    refine .ifTrue ?_ ?_
    · simp only [List.mem_cons, List.not_mem_nil, or_false] at hw
      rcases hw with rfl | rfl | rfl <;> rfl
    · have hlength : (Tree.word w).length = 1 := rfl
      rw [if_pos hlength]
      exact (Reads.within (Reads.anyWord w)).andThen (.pure rfl)
  | @inside p hp htry =>
    have htrees : (Visibility.restricted true p).trees ++ us =
        Tree.word "pub" ++ (Tree.within .paren (Tree.word "in" ++ p.trees) ++ us) := by
      rw [Visibility.trees, List.append_assoc]
      rfl
    rw [htrees]
    unfold Grammar.visibility
    refine Reads.test.andThen (.ifFalse rfl ((Reads.word "pub").andThen (Reads.rest.andThen ?_)))
    refine .ifFalse rfl (.ifTrue rfl (.andThen (a := p) ?_ (.pure rfl)))
    exact .within ((Reads.word "in").andThen (reads_modulePath hp htry))

theorem Visibility.IsPlain.passes {v : Visibility} (hv : v.IsPlain) : Passes v (· = v) :=
  fun _ hparen hpub => .inl (hv.reads hparen hpub)

namespace Grammar

variable {g : Grammar} {d : Nat} {us members : List Tree} {name : String}

/-! ## Items -/

variable {V : Visibility → Prop} {M : List Member → Prop}

/-- What is in the braces of a trait or an implementation. -/
theorem reads_memberBraces {item : Reader Member} (hhash : peekOp "#" members = false)
    (h : Reads (Reader.manyWhile (!·.isEmpty) item) members [] M) :
    Reads (Reader.within .brace do
        let inner ← g.innerAttributes
        return (inner, ← Reader.manyWhile (!·.isEmpty) item))
      (Tree.within .brace members ++ us) us fun r => r.1 = [] ∧ M r.2 := by
  have hinner : Reads g.innerAttributes members members (· = []) :=
    .manyWhile_nil (by rw [hhash, Bool.false_and])
  exact .within (hinner.andThen (h.bind fun ms hms => .pure ⟨rfl, hms⟩))

theorem reads_traitOrAlias {attrs : List Attribute} {v : Visibility}
    (hvis : Reads visibility
      (v.trees ++ (word "trait" ++ (word name ++ (Tree.within .brace members ++ us))))
      (word "trait" ++ (word name ++ (Tree.within .brace members ++ us))) V)
    (hhash : peekOp "#" members = false)
    (hmembers : Reads (Reader.manyWhile (!·.isEmpty) (ofDepth d).traitMember) members [] M) :
    Reads ((ofDepth d).traitOrAlias attrs)
      (v.trees ++ (word "trait" ++ (word name ++ (Tree.within .brace members ++ us)))) us
      fun it => isName name ∧ ∃ v ms, V v ∧ M ms ∧
        it = .trait ⟨attrs, v, false, false, name, 0, .none, [], false, ms⟩ := by
  unfold traitOrAlias
  refine hvis.bind fun v hv => (Reads.word "trait").andThen (Reads.get.bind ?_)
  rintro ⟨_, scope, stray⟩ rfl
  refine (Reads.name name).bind ?_
  rintro _ ⟨rfl, hname⟩
  refine (reads_generics_none rfl).andThen (Reads.rest.andThen (.ifTrue rfl ?_))
  unfold traitRest
  refine (Reads.op?_none rfl).andThen (.ifFalse rfl (.andThen (.pure rfl) ?_))
  refine (reads_whereClause_none rfl).andThen ((reads_memberBraces hhash hmembers).bind ?_)
  rintro ⟨_, ms⟩ ⟨rfl, hms⟩
  exact .pure ⟨hname, v, ms, hv, hms, by rw [List.append_nil]; rfl⟩

/-- A trait, with any visibility: one that is cut short makes no item. -/
theorem reads_traitItem {attrs : List Attribute} {ts : List Tree} {v : Visibility}
    (hattrs : Reads (ofDepth d).outerAttributes ts
      (v.trees ++ (word "trait" ++ (word name ++ (Tree.within .brace members ++ us)))) (· = attrs))
    (hvis : Passes v V) (hhash : peekOp "#" members = false)
    (hmembers : ∀ d, Reads (Reader.manyWhile (!·.isEmpty) (ofDepth d).traitMember) members [] M) :
    Reads (ofDepth d).itemWith ts us
      fun it => isName name ∧ ∃ v ms, V v ∧ M ms ∧
        it = .trait ⟨attrs, v, false, false, name, 0, .none, [], false, ms⟩ := by
  unfold itemWith
  refine hattrs.andThen (Reads.get.bind ?_)
  rintro ⟨_, scope, stray⟩ rfl
  have hpub : peekWord "pub"
      (word "trait" ++ (word name ++ (Tree.within .brace members ++ us))) = false := rfl
  rcases hvis rfl hpub with hvis | ⟨ts, hvis⟩
  · refine hvis.bind fun w _ => Reads.get.bind ?_
    rintro ⟨_, scope, stray⟩ rfl
    iterate 11 refine .ifFalse rfl ?_
    refine .ifTrue rfl (Reads.set.bind fun _ _ => ?_)
    exact reads_traitOrAlias hvis hhash (hmembers d)
  · refine hvis.bind fun w _ => Reads.get.bind ?_
    rintro ⟨_, scope, stray⟩ rfl
    iterate 15 refine .ifFalse rfl ?_
    refine .ifFalse (Bool.and_false _) .failExpected

/-- A path of words is the type before a word or a block. -/
theorem reads_pathTy {p : Path} (hp : p.IsWords) (hpath : endsPath false us)
    (hbang : peekOp "!" us = false) (hplus : peekOp "+" us = false) :
    Reads ((ofDepth d).ty true) (p.trees ++ us) us (· = .path p) := by
  cases d with
  | zero => exact .failExpected
  | succ d => exact reads_typeWith_path (begins_words hp) (reads_path hp hpath) hbang hplus

/-- An implementation of the trait of one name for a path of words. -/
theorem reads_implItem {self : Path} (hname : isName name) (hself : self.IsWords)
    (hhash : peekOp "#" members = false)
    (hmembers : ∀ d, Reads (Reader.manyWhile (!·.isEmpty) (ofDepth d).implMember) members [] M) :
    Reads (ofDepth d).itemWith
      (word "impl" ++ (word name ++ (word "for" ++ (self.trees ++ (Tree.within .brace members ++ us)))))
      us fun it => ∃ ms, M ms ∧ it = .impl ⟨[], .none, some (.single name), .path self, ms⟩ := by
  have hno {k : String} (hk : k ∈ keywords) (ts : List Tree) :
      peekWord k (word name ++ ts) = false := peekWord_name ts hname hk
  have htrait (ts : List Tree) : Reads ((ofDepth d).ty true) (word name ++ (word "for" ++ ts))
      (word "for" ++ ts) (· = .path (.single name)) := by
    rw [← Path.trees_single]
    exact reads_pathTy (Path.isWords_single (by simp [isPathWord, hname])) rfl rfl rfl
  have himpl : Reads ((ofDepth d).implItem [])
      (word "impl" ++ (word name ++ (word "for" ++ (self.trees ++ (Tree.within .brace members ++ us)))))
      us fun it => ∃ ms, M ms ∧ it = .impl ⟨[], .none, some (.single name), .path self, ms⟩ := by
    unfold implItem
    refine (reads_visibility_inherited rfl).andThen ((Reads.word?_none rfl).andThen ?_)
    refine (Reads.word?_none rfl).andThen ((Reads.word "impl").andThen (Reads.rest.andThen ?_))
    refine .ifFalse rfl (.andThen (.pure rfl) (Reads.rest.andThen ?_))
    refine .ifFalse (by rw [hno (by decide)]; rfl) (Reads.rest.andThen (Reads.get.bind fun _ _ => ?_))
    refine .ifFalse rfl ((htrait _).andThen (Reads.test.andThen ?_))
    refine .ifTrue rfl ((Reads.word "for").andThen ((reads_pathTy hself rfl rfl rfl).andThen ?_))
    refine (reads_whereClause_none rfl).andThen ((reads_memberBraces hhash (hmembers d)).bind ?_)
    rintro ⟨_, ms⟩ ⟨rfl, hms⟩
    exact .ifTrue (by rw [hno (by decide)]; rfl) (.pure ⟨ms, hms, rfl⟩)
  unfold itemWith
  refine (reads_outerAttributes rfl).andThen (Reads.get.bind ?_)
  rintro ⟨_, scope, stray⟩ rfl
  refine (reads_visibility_inherited rfl).andThen (Reads.get.bind ?_)
  rintro ⟨_, scope, stray⟩ rfl
  iterate 13 refine .ifFalse rfl ?_
  exact .ifTrue rfl (Reads.set.bind fun _ _ => himpl)

end Grammar

/-! ## Parameters -/

namespace FnInput

/-- A parameter with a name that is read back. -/
def IsTyped (i : FnInput) : Prop :=
  ∃ name ty, i = .typed [] (.binding name) ty ∧ isName name ∧ ty.IsRead

theorem trees_typed (name : String) (t : Ty) :
    (FnInput.typed [] (.binding name) t).trees = word name ++ (op ":" ++ t.trees) := by
  simp [FnInput.trees, attributesTrees, Node.trees_binding]

/-- The receiver `&self`. -/
def borrowedSelf : FnInput := .receiver [] ⟨some none, false, none⟩

theorem trees_borrowedSelf : borrowedSelf.trees = op "&" ++ word "self" := by
  simp [borrowedSelf, FnInput.trees, attributesTrees, Receiver.trees, when]

end FnInput

namespace Grammar

open FnInput

variable {d : Nat} {us : List Tree} {name : String}

/-- No name is taken for `self`. -/
theorem reads_receiver_name {g : Grammar} {ts : List Tree} (hname : isName name) :
    Reads g.receiver (word name ++ ts) [] fun _ => False := by
  have hself : Reads (Reader.word "self") (word name ++ ts) [] fun _ => False :=
    Reads.test.andThen (.ifFalse (peekWord_name ts hname (by decide)) .failExpected)
  unfold receiver
  refine Reads.test.andThen (.ifFalse rfl (.andThen (.pure rfl) ?_))
  refine (Reads.word?_none (peekWord_name ts hname (by decide))).andThen ?_
  exact hself.bind fun _ h => h.elim

theorem reads_fnInput_typed {t : Ty} (hname : isName name) (ht : t.IsRead) (hus : endsType us) :
    Reads ((ofDepth d).fnInput []) (word name ++ (op ":" ++ (t.trees ++ us))) us
      (· = .inl (.typed [] (.binding name) t)) := by
  have hbinding : Reads (ofDepth d).pattern (word name ++ (op ":" ++ (t.trees ++ us)))
      (op ":" ++ (t.trees ++ us)) (· = .binding name) := by
    rw [← Node.trees_binding]
    exact (Node.isPattern_binding hname).reads rfl
  unfold fnInput
  refine (Reads.ahead? (reads_receiver_name hname)).bind fun r hr => ?_
  cases r with
  | some r => exact (hr r.1 r.2 rfl).1.elim
  | none =>
    refine Reads.rest.andThen (.ifFalse (Bool.and_false _) (hbinding.andThen ?_))
    refine (Reads.op ":").andThen (Reads.test.andThen ?_)
    exact .ifFalse (opensType_eq (ht.begins us)).2.2.2.1 ((ht.reads hus).andThen (.pure rfl))

theorem reads_fnInput_self {g : Grammar} :
    Reads (g.fnInput []) (op "&" ++ (word "self" ++ us)) us (· = .inl borrowedSelf) := by
  have hreceiver (scope : Pos) (stray : Option SyntaxError) :
      g.receiver ⟨op "&" ++ (word "self" ++ us), scope, stray⟩ =
        .ok (⟨some none, false, none⟩, ⟨us, scope, stray⟩) := rfl
  unfold fnInput
  refine (Reads.ahead?_some hreceiver).bind ?_
  rintro _ ⟨⟨_, scope, stray⟩, rfl, rfl⟩
  exact Reads.set.bind fun _ _ => .pure rfl

/-- The last parameter. -/
theorem reads_fnInputs_last {i : FnInput} {fuel : Nat} (hi : i.IsTyped) :
    Reads ((ofDepth d).fnInputs false true (fuel + 1)) i.trees [] (· = ([i], false, [])) := by
  obtain ⟨name, t, rfl, hname, ht⟩ := hi
  have hinput : Reads ((ofDepth d).fnInput []) (word name ++ (op ":" ++ (t.trees ++ []))) []
      (· = .inl (.typed [] (.binding name) t)) := reads_fnInput_typed hname ht rfl
  rw [List.append_nil] at hinput
  rw [trees_typed]
  unfold fnInputs
  refine Reads.rest.andThen (.ifFalse rfl ((reads_outerAttributes rfl).andThen ?_))
  refine Reads.test.andThen (.ifFalse rfl (Reads.rest.andThen (hinput.andThen ?_)))
  exact .ifFalse rfl (.ifFalse rfl (Reads.rest.andThen (.ifTrue rfl (.pure rfl))))

/-- A parameter before others. -/
theorem reads_fnInputs_more {i : FnInput} {js : List FnInput} {fuel : Nat} {ts : List Tree}
    (hi : i.IsTyped)
    (hjs : Reads ((ofDepth d).fnInputs false true fuel) ts [] (· = (js, false, []))) :
    Reads ((ofDepth d).fnInputs false true (fuel + 1)) (i.trees ++ (op "," ++ ts)) []
      (· = (i :: js, false, [])) := by
  obtain ⟨name, t, rfl, hname, ht⟩ := hi
  rw [trees_typed, List.append_assoc, List.append_assoc]
  unfold fnInputs
  refine Reads.rest.andThen (.ifFalse rfl ((reads_outerAttributes rfl).andThen ?_))
  refine Reads.test.andThen (.ifFalse rfl (Reads.rest.andThen ?_))
  refine (reads_fnInput_typed hname ht rfl).andThen (.ifFalse rfl (.ifFalse rfl ?_))
  refine Reads.rest.andThen (.ifFalse rfl ((Reads.op ",").andThen ?_))
  exact hjs.andThen (.pure rfl)

/-- Parameters with names, at least one. -/
theorem reads_fnInputs_typed {i : FnInput} {js : List FnInput} (htyped : ∀ j ∈ i :: js, j.IsTyped)
    {fuel : Nat} (hfuel : js.length < fuel) :
    Reads ((ofDepth d).fnInputs false true fuel)
      (separated "," false ((i :: js).map FnInput.trees)) [] (· = (i :: js, false, [])) := by
  induction js generalizing i fuel with
  | nil =>
    obtain ⟨fuel, rfl⟩ := Nat.exists_eq_add_one_of_ne_zero (Nat.ne_zero_of_lt hfuel)
    rw [List.map_singleton, separated_singleton]
    exact reads_fnInputs_last (htyped i (.head _))
  | cons j js ih =>
    obtain ⟨fuel, rfl⟩ := Nat.exists_eq_add_one_of_ne_zero (Nat.ne_zero_of_lt hfuel)
    rw [List.map_cons, List.map_cons, separated_cons_cons, List.append_assoc, ← List.map_cons]
    refine reads_fnInputs_more (htyped i (.head _)) (ih (fun k hk => htyped k (.tail _ hk)) ?_)
    simpa using hfuel

/-- Parameters with names, at least one, behind `&self`. -/
theorem inputs_typed {is : List FnInput} (hne : is ≠ []) (htyped : ∀ i ∈ is, i.IsTyped) :
    Inputs (separated "," false ((borrowedSelf :: is).map FnInput.trees))
      (· = (borrowedSelf :: is, false, [])) := by
  obtain ⟨i, js, rfl⟩ := List.exists_cons_of_ne_nil hne
  have hlength : (i :: js).length ≤
      (separated "," false ((i :: js).map FnInput.trees)).length := by
    refine length_le_separated fun j hj => ?_
    obtain ⟨name, t, rfl, -, -⟩ := htyped j hj
    rw [trees_typed]
    exact List.cons_ne_nil _ _
  have hread {d : Nat} : Reads (do (ofDepth d).fnInputs true false ((← Reader.rest).length + 1))
      (op "&" ++ (word "self" ++ (op "," ++ separated "," false ((i :: js).map FnInput.trees)))) []
      (· = (borrowedSelf :: i :: js, false, [])) := by
    refine Reads.rest.andThen ?_
    unfold fnInputs
    refine Reads.rest.andThen (.ifFalse rfl ((reads_outerAttributes rfl).andThen ?_))
    refine Reads.test.andThen (.ifFalse rfl (Reads.rest.andThen (reads_fnInput_self.andThen ?_)))
    refine .ifFalse rfl (.ifFalse rfl (Reads.rest.andThen (.ifFalse rfl ?_)))
    refine (Reads.op ",").andThen ((reads_fnInputs_typed htyped ?_).andThen (.pure rfl))
    rw [List.length_cons] at hlength
    simp only [List.length_append]
    omega
  intro d
  rw [List.map_cons, List.map_cons, separated_cons_cons, ← List.map_cons, trees_borrowedSelf,
    List.append_assoc, List.append_assoc]
  exact hread.gives

end Grammar

end WrapperGen.Source
