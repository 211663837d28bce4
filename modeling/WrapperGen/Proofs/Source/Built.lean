import WrapperGen.Proofs.Source.Types
import WrapperGen.Source.Build
/-!
# Built expressions are read back
-/

namespace WrapperGen.Source

open Tree Grammar

/-! ## The trees of built phrases -/

@[simp] theorem nodesTrees_nil : nodesTrees [] = [] := rfl

@[simp] theorem nodesTrees_cons (n : Node) (ns : List Node) :
    nodesTrees (n :: ns) = n.trees ++ nodesTrees ns := rfl

@[simp] theorem nodesTrees_append (ns ms : List Node) :
    nodesTrees (ns ++ ms) = nodesTrees ns ++ nodesTrees ms := by
  induction ns with
  | nil => rfl
  | cons n ns ih => rw [List.cons_append, nodesTrees_cons, nodesTrees_cons, ih, List.append_assoc]

namespace Node

variable (e f pat body : Node) (ns ms : List Node) (name : String)

@[simp] theorem trees_form (form : Form) : (Node.form form ns).trees = nodesTrees ns := rfl

@[simp] theorem trees_group (d : Delim) :
    (Node.group d ns).trees = [.group d (nodesTrees ns) noPos noPos] := rfl

@[simp] theorem trees_args (a : Args) : (Node.args a).trees = a.trees := rfl

@[simp] theorem trees_path (p : Path) : (Node.path p).trees = p.trees := rfl

@[simp] theorem trees_absent : absent.trees = [] := rfl

@[simp] theorem trees_op : (op name).trees = Tree.op name := rfl

@[simp] theorem trees_word : (word name).trees = Tree.word name := rfl

theorem nodesTrees_commaSeparated :
    nodesTrees (commaSeparated ns) = separated "," false (ns.map Node.trees) := by
  induction ns with
  | nil => rfl
  | cons n ns ih =>
    cases ns with
    | nil => simp [commaSeparated, separated]
    | cons m ns =>
      have htrees : nodesTrees (commaSeparated (n :: m :: ns)) =
          n.trees ++ (comma.trees ++ nodesTrees (commaSeparated (m :: ns))) := rfl
      rw [htrees, ih]
      simp [separated, comma]

/-- Elements with commas in parentheses. -/
def inParens : Tree := .group .paren (nodesTrees (commaSeparated ns)) noPos noPos

/-- Statements in braces. -/
def inBraces : Tree := .group .brace (nodesTrees ns) noPos noPos

theorem trees_call : (call f ns).trees = f.trees ++ [inParens ns] := by
  simp [call, inParens]

theorem trees_invoke :
    (invoke e name ns).trees = e.trees ++ (Tree.op "." ++ (Tree.word name ++ [inParens ns])) := by
  simp [invoke, inParens]

theorem trees_invokeAt (t : Ty) :
    (invokeAt e name t ns).trees = e.trees ++ (Tree.op "." ++ (Tree.word name ++
      ((Args.angle true [.type t] false).trees ++ [inParens ns]))) := by
  simp [invokeAt, inParens]

theorem trees_orReturn : (orReturn e).trees = e.trees ++ Tree.op "?" := by
  simp [orReturn]

theorem trees_await :
    (await e).trees = e.trees ++ (Tree.op "." ++ Tree.word "await") := by
  simp [await]

theorem trees_borrowMut :
    (borrowMut e).trees = Tree.op "&" ++ (Tree.word "mut" ++ e.trees) := by
  simp [borrowMut]

theorem trees_block : (block ns).trees = [inBraces ns] := by
  simp [block, braces, inBraces]

theorem trees_asyncMove :
    (asyncMove ns).trees = Tree.word "async" ++ (Tree.word "move" ++ [inBraces ns]) := by
  simp [asyncMove, braces, inBraces]

theorem trees_closure (moves : Bool) :
    (closure moves ns body).trees =
      when moves (Tree.word "move") ++ (Tree.op "|" ++ (nodesTrees (commaSeparated ns) ++
        (Tree.op "|" ++ body.trees))) := by
  cases moves <;> simp [closure, when]

theorem trees_value : (value e).trees = e.trees := by simp [value]

theorem trees_statement : (statement e).trees = e.trees ++ Tree.op ";" := by
  simp [statement]

theorem trees_bind :
    (bind pat e).trees =
      Tree.word "let" ++ (pat.trees ++ (Tree.op "=" ++ (e.trees ++ Tree.op ";"))) := by
  simp [bind]

theorem trees_binding : (binding name).trees = Tree.word name := by simp [binding]

theorem trees_bindingMut :
    (bindingMut name).trees = Tree.word "mut" ++ Tree.word name := by
  simp [bindingMut]

theorem trees_named : (named name).trees = Tree.word name := by
  rw [named, trees_path, Path.trees_single]

theorem trees_holding (constructor : String) :
    (holding constructor name).trees = Tree.word constructor ++ [inParens [binding name]] := by
  simp [holding, trees_named, inParens, commaSeparated]

theorem trees_arm : (arm pat body).trees = pat.trees ++ (Tree.op "=>" ++ body.trees) := by
  simp [arm]

theorem trees_armComma :
    (armComma pat body).trees = pat.trees ++ (Tree.op "=>" ++ (body.trees ++ Tree.op ",")) := by
  simp [armComma, comma]

theorem trees_matchOn :
    (matchOn e ns).trees = Tree.word "match" ++ (e.trees ++ [inBraces ns]) := by
  simp [matchOn, braces, inBraces]

theorem trees_ifElse :
    (ifElse e ns ms).trees =
      Tree.word "if" ++ (e.trees ++ (inBraces ns :: (Tree.word "else" ++ [inBraces ms]))) := by
  simp [ifElse, braces, inBraces, trees_block]

theorem trees_ifLet :
    (ifLet pat e ns).trees = Tree.word "if" ++ (Tree.word "let" ++ (pat.trees ++
      (Tree.op "=" ++ (e.trees ++ [inBraces ns])))) := by
  simp [ifLet, braces, inBraces]

end Node

/-! ## What ends a phrase -/

/-- Whether an expression is over before the trees. A block ends only an expression that is no
struct literal. -/
def endsExpr (struct : Bool) : List Tree → Bool
  | [] => true
  | .leaf (.punct t false) _ :: _ => t == "," || t == ";"
  | .group .brace _ _ _ :: _ => !struct
  | _ => false

/-- Whether an operand is over before the trees, so that at most a call or `?` goes on with it. -/
def endsOperand (struct : Bool) : List Tree → Bool
  | .leaf (.punct t false) _ :: _ => t == "," || t == ";" || t == "." || t == "?"
  | .group .paren _ _ _ :: _ => true
  | ts => endsExpr struct ts

theorem endsExpr_cases {struct : Bool} {us : List Tree} (h : endsExpr struct us) :
    us = [] ∨ (∃ pos vs, us = .leaf (.punct "," false) pos :: vs) ∨
      (∃ pos vs, us = .leaf (.punct ";" false) pos :: vs) ∨
      struct = false ∧ ∃ ts opened closed vs, us = .group .brace ts opened closed :: vs := by
  unfold endsExpr at h
  split at h
  · exact .inl rfl
  · simp only [Bool.or_eq_true, beq_iff_eq] at h
    rcases h with rfl | rfl
    · exact .inr (.inl ⟨_, _, rfl⟩)
    · exact .inr (.inr (.inl ⟨_, _, rfl⟩))
  · exact .inr (.inr (.inr ⟨by simpa using h, _, _, _, _, rfl⟩))
  · cases h

theorem endsOperand_cases {struct : Bool} {us : List Tree} (h : endsOperand struct us) :
    endsExpr struct us ∨ (∃ pos vs, us = .leaf (.punct "." false) pos :: vs) ∨
      (∃ pos vs, us = .leaf (.punct "?" false) pos :: vs) ∨
      ∃ ts opened closed vs, us = .group .paren ts opened closed :: vs := by
  unfold endsOperand at h
  split at h
  · simp only [Bool.or_eq_true, beq_iff_eq] at h
    rcases h with ((rfl | rfl) | rfl) | rfl
    · exact .inl rfl
    · exact .inl rfl
    · exact .inr (.inl ⟨_, _, rfl⟩)
    · exact .inr (.inr (.inl ⟨_, _, rfl⟩))
  · exact .inr (.inr (.inr ⟨_, _, _, _, rfl⟩))
  · exact .inl h

theorem endsOperand_of_endsExpr {struct : Bool} {us : List Tree} (h : endsExpr struct us) :
    endsOperand struct us := by
  rcases endsExpr_cases h with rfl | ⟨_, _, rfl⟩ | ⟨_, _, rfl⟩ | ⟨rfl, _, _, _, _, rfl⟩ <;> rfl

theorem endsOperand_path {struct : Bool} {us : List Tree} (h : endsOperand struct us) :
    endsPath true us ∧ atInvocation us = false ∧ (struct && peekGroup .brace us) = false := by
  rcases endsOperand_cases h with h | ⟨_, _, rfl⟩ | ⟨_, _, rfl⟩ | ⟨_, _, _, _, rfl⟩
  · rcases endsExpr_cases h with rfl | ⟨_, _, rfl⟩ | ⟨_, _, rfl⟩ | ⟨rfl, _, _, _, _, rfl⟩ <;>
      exact ⟨rfl, rfl, by simp [peekGroup]⟩
  all_goals exact ⟨rfl, rfl, by simp [peekGroup]⟩

namespace Grammar

variable {g : Grammar} {struct : Bool} {ts us vs : List Tree}

theorem reads_outerAttributes (h : peekOp "#" ts = false) :
    Reads g.outerAttributes ts ts (· = []) :=
  .manyWhile_nil h

/-! ## Paths -/

theorem reads_qualifiedPath {exprStyle : Bool} {p : Path} (hp : p.IsWords)
    (hus : endsPath exprStyle us) :
    Reads (g.qualifiedPath exprStyle) (p.trees ++ us) us (· = .inl p) := by
  have hangle : peekOp "<" (p.trees ++ us) = false := by
    obtain ⟨leading, _ | ⟨s, ss⟩⟩ := p
    · exact absurd rfl hp.nonempty
    · rw [Path.trees_cons, (hp.segments s (.head _)).trees_eq]
      cases leading <;> rfl
  unfold qualifiedPath
  exact Reads.test.andThen (.ifTrue (by rw [hangle]; rfl) ((reads_path hp hus).andThen (.pure rfl)))

theorem reads_pathExpr {p : Path} (hp : p.IsWords) (hus : endsOperand struct us) :
    Reads (g.pathExpr struct) (p.trees ++ us) us (· = .path p) := by
  obtain ⟨hend, hbang, hbrace⟩ := endsOperand_path hus
  unfold pathExpr
  refine (reads_qualifiedPath hp hend).andThen ?_
  refine Reads.test.andThen (.ifFalse (by rw [hbang, Bool.and_false]) ?_)
  exact Reads.test.andThen (.ifFalse hbrace (.pure rfl))

/-- An operand that begins with a word of a path is a path. -/
theorem reads_atom_word {w : String} {Q : Node → Prop} (hw : isPathWord w)
    (htry : w = "try" → peekOp "::" vs) (h : Reads (g.pathExpr struct) (word w ++ vs) us Q) :
    Reads (g.atom g.unary struct) (word w ++ vs) us Q := by
  unfold atom
  refine Reads.rest.andThen ?_
  rcases isPathWord_cases hw with hname | rfl | rfl | rfl | rfl | rfl
  · have hno {k : String} (hk : k ∈ keywords) : peekWord k (word w ++ vs) = false :=
      peekWord_name vs hname hk
    have hlit : peekLit (word w ++ vs) = false := by
      change (w == "true" || w == "false") = false
      simp (disch := decide) [isName_ne hname]
    have hbar : peekOp "|" (word w ++ vs) = false := rfl
    refine .ifFalse hlit ?_
    refine .ifFalse (by simp (disch := decide) [hno]) ?_
    refine .ifFalse (by simp (disch := decide) [hno]) ?_
    refine .ifFalse (by simp (disch := decide) [hno, hbar]) ?_
    exact .ifTrue (by simp [peekName_name vs hname]) h
  · exact .ifFalse rfl (.ifFalse rfl (.ifFalse rfl (.ifFalse rfl (.ifTrue rfl h))))
  · exact .ifFalse rfl (.ifFalse rfl (.ifFalse rfl (.ifFalse rfl (.ifTrue rfl h))))
  · exact .ifFalse rfl (.ifFalse rfl (.ifFalse rfl (.ifFalse rfl (.ifTrue rfl h))))
  · have hcolons : peekOp "::" vs = true := htry rfl
    have hbrace : peekGroup .brace vs = false := by
      rcases vs with _ | ⟨_ | _, vs⟩
      · rfl
      · rfl
      · cases hcolons
    refine .ifFalse rfl (.ifFalse rfl (.ifFalse hbrace (.ifFalse rfl (.ifTrue ?_ h))))
    simp [hcolons, peekWord, word]
  · exact .ifFalse rfl (.ifFalse rfl (.ifFalse rfl (.ifFalse rfl (.ifTrue rfl h))))

/-- An operand that begins as a path does is a path. -/
theorem reads_atom_path {p : Path} (hp : p.IsWords) (htry : p ≠ .single "try")
    (hus : endsOperand struct us) :
    Reads (g.atom g.unary struct) (p.trees ++ us) us (· = .path p) := by
  have hpath := reads_pathExpr (g := g) hp hus
  obtain ⟨leading, _ | ⟨s, ss⟩⟩ := p
  · exact absurd rfl hp.nonempty
  obtain hs := hp.segments _ (.head _)
  rw [Path.trees_cons, List.append_assoc, List.append_assoc, hs.trees_eq] at hpath ⊢
  cases leading
  · refine reads_atom_word hs.word ?_ hpath
    rintro hname
    cases ss with
    | nil =>
      refine absurd ?_ htry
      obtain ⟨name, args⟩ := s
      cases hs.args
      cases hname
      rfl
    | cons t ss =>
      rw [List.flatMap_cons, (hp.segments t (.tail _ (.head _))).trees_eq]
      rfl
  · unfold atom
    refine Reads.rest.andThen ?_
    exact .ifFalse rfl (.ifFalse rfl (.ifFalse rfl (.ifFalse rfl (.ifTrue rfl hpath))))

/-! ## Operands and what goes on with them -/

theorem trailers_ends {e : Node} (hus : endsExpr struct us) {fuel : Nat} (hfuel : us.length < fuel) :
    Reads (g.trailers fuel e) us us (· = e) := by
  obtain ⟨fuel, rfl⟩ := Nat.exists_eq_add_one_of_ne_zero (Nat.ne_zero_of_lt hfuel)
  unfold trailers
  refine Reads.rest.andThen ?_
  rcases endsExpr_cases hus with rfl | ⟨_, _, rfl⟩ | ⟨_, _, rfl⟩ | ⟨rfl, _, _, _, _, rfl⟩ <;>
    exact .ifFalse rfl (.ifFalse rfl (.ifFalse rfl (.ifFalse rfl (.pure rfl))))

/-- What begins with no attribute and no prefix operator is an operand and what goes on with it. -/
theorem reads_unaryWith {n : Node} {Q : Node → Prop} (hhash : peekOp "#" ts = false)
    (hamp : peekOp "&" ts = false)
    (hsigns : (peekOp "*" ts || peekOp "!" ts || peekOp "-" ts) = false)
    (hatom : Reads (g.atom g.unary struct) ts us (· = n))
    (h : ∀ ⦃fuel⦄, us.length < fuel → Reads (g.trailers fuel n) us vs Q) :
    Reads (g.unaryWith struct) ts vs Q := by
  unfold unaryWith
  refine (reads_outerAttributes hhash).andThen (Reads.rest.andThen ?_)
  refine .ifFalse hamp (.ifFalse hsigns (hatom.andThen ?_))
  exact Reads.rest.andThen ((h (Nat.lt_succ_self _)).bind fun _ hQ => .pure hQ)

/-- No operator follows where an expression ends. -/
theorem noOperator {us : List Tree} (hus : endsExpr struct us) :
    binaryOp? us = none ∧ peekOp "=" us = false ∧ peekOp ".." us = false ∧
      peekWord "as" us = false := by
  rcases endsExpr_cases hus with rfl | ⟨_, _, rfl⟩ | ⟨_, _, rfl⟩ | ⟨rfl, _, _, _, _, rfl⟩ <;>
    exact ⟨rfl, rfl, rfl, rfl⟩

theorem reads_climbHere {e : Node} {level : Nat} (hus : endsExpr struct us) :
    Reads (g.climbHere e struct level) us us (· = e) := by
  unfold climbHere
  refine Reads.rest.andThen ?_
  unfold climbWith
  refine Reads.rest.andThen ?_
  by_cases hrange : e.isRange
  · exact .ifTrue hrange (.pure rfl)
  refine .ifFalse (by simpa using hrange) ?_
  obtain ⟨hbinary, hassign, hrange, hcast⟩ := noOperator hus
  simp only [hbinary]
  refine .ifFalse (by simp [hassign]) (.ifFalse (by simp [hrange]) ?_)
  exact .ifFalse (by simp [hcast]) (.pure rfl)

theorem reads_exprWith {e : Node} (h : Reads (g.unaryWith struct) ts us (· = e))
    (hus : endsExpr struct us) : Reads (g.exprWith struct) ts us (· = e) := by
  unfold exprWith
  exact h.andThen (reads_climbHere hus)

end Grammar

namespace Node

/-- An operand: reading it and what follows comes to reading what follows behind it. -/
structure IsOperand (n : Node) : Prop where
  notRange : n.isRange = false
  trees_ne_nil : n.trees ≠ []
  reads : ∀ ⦃d struct us vs⦄ ⦃Q : Node → Prop⦄, endsOperand struct us →
    (∀ ⦃fuel⦄, us.length < fuel → Reads ((ofDepth d).trailers fuel n) us vs Q) →
    Reads ((ofDepth d).unaryWith struct) (n.trees ++ us) vs Q

/-- An expression without binary operators that is read back. -/
def IsUnary (n : Node) : Prop :=
  ∀ ⦃d struct us⦄, endsExpr struct us →
    Reads ((ofDepth d).unaryWith struct) (n.trees ++ us) us (· = n)

/-- An expression that is read back. -/
structure IsExpr (n : Node) : Prop where
  trees_ne_nil : n.trees ≠ []
  reads : ∀ ⦃d struct us⦄, endsExpr struct us →
    Reads ((ofDepth d).expr struct) (n.trees ++ us) us (· = n)

theorem IsOperand.isUnary {n : Node} (h : n.IsOperand) : n.IsUnary :=
  fun _ _ _ hus => h.reads (endsOperand_of_endsExpr hus) fun _ => trailers_ends hus

theorem isOperand_path {p : Path} (hp : p.IsWords) (htry : p ≠ .single "try") :
    IsOperand (.path p) := by
  refine ⟨rfl, ?_, ?_⟩
  · rw [trees_path]
    exact hp.trees_ne_nil
  intro d struct us vs Q hus h
  rw [trees_path]
  have hatom := reads_atom_path (g := ofDepth d) hp htry hus
  obtain ⟨leading, _ | ⟨s, ss⟩⟩ := p
  · exact absurd rfl hp.nonempty
  have hs := hp.segments _ (.head _)
  rw [Path.trees_cons, List.append_assoc, List.append_assoc, hs.trees_eq] at hatom ⊢
  cases leading <;> exact reads_unaryWith rfl rfl rfl hatom h

theorem isOperand_named {name : String} (hname : isName name ∨ name = "self") :
    IsOperand (named name) := by
  refine isOperand_path (Path.isWords_single ?_) ?_
  · rcases hname with h | rfl
    · simp [isPathWord, h]
    · rfl
  · rintro h
    cases h
    exact absurd hname (by decide)

theorem IsUnary.isExpr {n : Node} (h : n.IsUnary) (hne : n.trees ≠ []) : n.IsExpr where
  trees_ne_nil := hne
  reads
  | 0, _, _, _ => .failExpected
  | _ + 1, _, _, hus => reads_exprWith (h hus) hus

theorem IsOperand.isExpr {n : Node} (h : n.IsOperand) : n.IsExpr := h.isUnary.isExpr h.trees_ne_nil

theorem isExpr_named {name : String} (hname : isName name) : (named name).IsExpr :=
  (isOperand_named (.inl hname)).isExpr

end Node

namespace Grammar

variable {us vs : List Tree}

/-- A list in brackets with commas is read back if its items are. -/
theorem reads_commaNodes {item : Reader Node} {ns : List Node} {F : List Tree → Prop}
    (hnil : F []) (hcomma : ∀ vs, F (op "," ++ vs))
    (hitem : ∀ n ∈ ns, ∀ vs, F vs → n.trees ≠ [] ∧ Reads item (n.trees ++ vs) vs (· = n)) :
    Reads (Reader.commaNodes item) (nodesTrees (Node.commaSeparated ns)) []
      (· = Node.commaSeparated ns) := by
  rw [Node.nodesTrees_commaSeparated]
  unfold Reader.commaNodes
  exact (Reads.commaList hnil hcomma hitem).andThen (.pure (by simp))

/-- Arguments in their parentheses. -/
theorem reads_arguments {d : Nat} {args : List Node} (hargs : ∀ a ∈ args, a.IsExpr) :
    Reads (Reader.within .paren (Reader.commaNodes ((ofDepth d).expr true)))
      (Node.inParens args :: us) us
      (· = Node.commaSeparated args) :=
  .within (reads_commaNodes (F := fun vs => endsExpr true vs) rfl (fun _ => rfl)
    fun a ha _ hvs => ⟨(hargs a ha).trees_ne_nil, (hargs a ha).reads hvs⟩)

theorem trailers_call {d fuel : Nat} {e : Node} {args : List Node} {Q : Node → Prop}
    (hargs : ∀ a ∈ args, a.IsExpr)
    (h : Reads ((ofDepth d).trailers fuel (Node.call e args)) us vs Q) :
    Reads ((ofDepth d).trailers (fuel + 1) e)
      (Node.inParens args :: us) vs Q := by
  unfold trailers
  exact Reads.rest.andThen (.ifTrue rfl ((reads_arguments hargs).andThen h))

theorem reads_member {name : String} (hname : isName name) :
    Reads member (word name ++ us) us (· = .word name) := by
  unfold member
  refine Reads.rest.andThen (.ifTrue (peekName_name us hname) ?_)
  exact (Reads.name name).bind fun _ h => .pure (by rw [h.1])

theorem trailers_invoke {d fuel : Nat} {e : Node} {name : String} {args : List Node}
    {Q : Node → Prop} (hrange : e.isRange = false) (hname : isName name)
    (hargs : ∀ a ∈ args, a.IsExpr)
    (h : Reads ((ofDepth d).trailers fuel (Node.invoke e name args)) us vs Q) :
    Reads ((ofDepth d).trailers (fuel + 1) e)
      (op "." ++ (word name ++
        Node.inParens args :: us)) vs Q := by
  unfold trailers
  refine Reads.rest.andThen (.ifFalse rfl (.ifTrue (by rw [hrange]; rfl) ?_))
  refine (Reads.op ".").andThen (Reads.get.bind fun _ _ => Reads.rest.andThen ?_)
  refine Reads.andThen (a := (e, false)) (.pure rfl) (.ifFalse rfl ?_)
  refine Reads.test.andThen (.ifFalse (peekWord_name _ hname (by decide)) ?_)
  refine (reads_member hname).andThen (Reads.test.andThen (.ifFalse rfl ?_))
  refine Reads.andThen (a := Node.absent) (.pure rfl) (Reads.test.andThen (.ifTrue rfl ?_))
  exact (reads_arguments hargs).andThen h

theorem trailers_invokeAt {d fuel : Nat} {e : Node} {name : String} {t : Ty} {args : List Node}
    {Q : Node → Prop} (hrange : e.isRange = false) (hname : isName name) (ht : t.IsRead)
    (hargs : ∀ a ∈ args, a.IsExpr)
    (h : Reads ((ofDepth d).trailers fuel (Node.invokeAt e name t args)) us vs Q) :
    Reads ((ofDepth d).trailers (fuel + 1) e)
      (op "." ++ (word name ++ ((Args.angle true [.type t] false).trees ++
        Node.inParens args :: us))) vs Q := by
  unfold trailers
  refine Reads.rest.andThen (.ifFalse rfl (.ifTrue (by rw [hrange]; rfl) ?_))
  refine (Reads.op ".").andThen (Reads.get.bind fun _ _ => Reads.rest.andThen ?_)
  refine Reads.andThen (a := (e, false)) (.pure rfl) (.ifFalse rfl ?_)
  refine Reads.test.andThen (.ifFalse (peekWord_name _ hname (by decide)) ?_)
  refine (reads_member hname).andThen (Reads.test.andThen (.ifTrue ?_ ?_))
  · rw [Args.trees]
    rfl
  refine Reads.bind (.andThen .rest (.pure trivial)) fun inner (_ : True) => ?_
  have hts : ∀ u ∈ [t], u.IsRead := fun u hu => List.mem_singleton.1 hu ▸ ht
  have hangle : Reads ((ofDepth d).angleArgs inner)
      ((Args.angle true [.type t] false).trees ++
        Node.inParens args :: us)
      (Node.inParens args :: us)
      (· = .angle true [.type t] false) :=
    (reads_angleArgs hts :)
  refine Reads.andThen (a := .args (.angle true [.type t] false))
    (.map (hangle.mono fun _ => congrArg Node.args)) ?_
  refine Reads.test.andThen (.ifTrue rfl ?_)
  exact (reads_arguments hargs).andThen h

theorem trailers_orReturn {d fuel : Nat} {e : Node} {Q : Node → Prop} (hrange : e.isRange = false)
    (h : Reads ((ofDepth d).trailers fuel (Node.orReturn e)) us vs Q) :
    Reads ((ofDepth d).trailers (fuel + 1) e) (op "?" ++ us) vs Q := by
  unfold trailers
  refine Reads.rest.andThen (.ifFalse rfl (.ifFalse rfl (.ifFalse rfl ?_)))
  exact .ifTrue (by rw [hrange]; rfl) ((Reads.op "?").andThen h)

theorem trailers_await {d fuel : Nat} {e : Node} {Q : Node → Prop} (hrange : e.isRange = false)
    (h : Reads ((ofDepth d).trailers fuel (Node.await e)) us vs Q) :
    Reads ((ofDepth d).trailers (fuel + 1) e) (op "." ++ (word "await" ++ us)) vs Q := by
  unfold trailers
  refine Reads.rest.andThen (.ifFalse rfl (.ifTrue (by rw [hrange]; rfl) ?_))
  refine (Reads.op ".").andThen (Reads.get.bind fun _ _ => Reads.rest.andThen ?_)
  refine Reads.andThen (a := (e, false)) (.pure rfl) (.ifFalse rfl ?_)
  exact Reads.test.andThen (.ifTrue rfl ((Reads.word "await").andThen h))

end Grammar

namespace Node

variable {e f : Node} {name : String} {args : List Node}

/-- What goes on with an operand makes an operand of the two. -/
theorem IsOperand.extend {ts : List Tree} (he : e.IsOperand) (hrange : f.isRange = false)
    (htrees : f.trees = e.trees ++ ts) (hne : ts ≠ [])
    (hts : ∀ struct us, endsOperand struct (ts ++ us))
    (hstep : ∀ ⦃d fuel us vs⦄ ⦃Q : Node → Prop⦄, Reads ((ofDepth d).trailers fuel f) us vs Q →
      Reads ((ofDepth d).trailers (fuel + 1) e) (ts ++ us) vs Q) : f.IsOperand := by
  refine ⟨hrange, ?_, ?_⟩
  · rw [htrees]
    exact List.append_ne_nil_of_left_ne_nil he.trees_ne_nil _
  intro d struct us vs Q hus h
  rw [htrees, List.append_assoc]
  refine he.reads (hts struct us) fun fuel hfuel => ?_
  obtain ⟨fuel, rfl⟩ := Nat.exists_eq_add_one_of_ne_zero (Nat.ne_zero_of_lt hfuel)
  have := List.length_pos_iff.2 hne
  rw [List.length_append] at hfuel
  exact hstep (h (by omega))

theorem isOperand_call (hf : f.IsOperand) (hargs : ∀ a ∈ args, a.IsExpr) :
    (call f args).IsOperand :=
  hf.extend rfl (trees_call f args) (List.cons_ne_nil _ _) (fun _ _ => rfl)
    fun _ _ _ _ _ => trailers_call hargs

theorem isOperand_invoke (he : e.IsOperand) (hname : isName name)
    (hargs : ∀ a ∈ args, a.IsExpr) : (invoke e name args).IsOperand :=
  he.extend rfl (trees_invoke e args name) (List.cons_ne_nil _ _) (fun _ _ => rfl)
    fun _ _ _ _ _ => trailers_invoke he.notRange hname hargs

theorem isOperand_invokeAt {t : Ty} (he : e.IsOperand) (hname : isName name) (ht : t.IsRead)
    (hargs : ∀ a ∈ args, a.IsExpr) : (invokeAt e name t args).IsOperand := by
  refine he.extend rfl (trees_invokeAt e args name t) (List.cons_ne_nil _ _) (fun _ _ => rfl)
    fun _ _ us _ _ h => ?_
  simpa using trailers_invokeAt he.notRange hname ht hargs h

theorem isOperand_orReturn (he : e.IsOperand) : (orReturn e).IsOperand :=
  he.extend rfl (trees_orReturn e) (List.cons_ne_nil _ _) (fun _ _ => rfl)
    fun _ _ _ _ _ => trailers_orReturn he.notRange

theorem isOperand_await (he : e.IsOperand) : (await e).IsOperand :=
  he.extend rfl (trees_await e) (List.cons_ne_nil _ _) (fun _ _ => rfl)
    fun _ _ _ _ _ => trailers_await he.notRange

theorem reads_parenExpr_unit {g : Grammar} {us : List Tree} :
    Reads g.parenExpr (.group .paren [] noPos noPos :: us) us (· = unit) := by
  have hnone : Reads (Reader.commaList (g.expr true))
      (separated "," false (([] : List Node).map Node.trees)) [] (· = ([], false)) :=
    Reads.commaList (F := fun _ => True) trivial (fun _ => trivial)
      fun a ha => absurd ha List.not_mem_nil
  unfold parenExpr
  exact (Reads.within hnone).andThen (.pure rfl)

theorem isOperand_unit : unit.IsOperand := by
  have htrees : unit.trees = [.group .paren [] noPos noPos] := rfl
  refine ⟨rfl, by rw [htrees]; exact List.cons_ne_nil _ _, ?_⟩
  intro d struct us vs Q hus h
  rw [htrees]
  refine reads_unaryWith rfl rfl rfl ?_ h
  unfold atom
  refine Reads.rest.andThen ?_
  exact .ifFalse rfl (.ifFalse rfl (.ifFalse rfl (.ifFalse rfl (.ifFalse rfl
    (.ifTrue rfl reads_parenExpr_unit)))))

theorem IsUnary.reads_unary {d : Nat} {struct : Bool} {us : List Tree} (h : e.IsUnary)
    (hus : endsExpr struct us) : Reads ((ofDepth d).unary struct) (e.trees ++ us) us (· = e) := by
  cases d with
  | zero => exact .failExpected
  | succ d => exact h hus

theorem isUnary_borrowMut (he : e.IsUnary) : (borrowMut e).IsUnary := by
  intro d struct us hus
  rw [trees_borrowMut, List.append_assoc, List.append_assoc]
  unfold unaryWith
  refine (reads_outerAttributes rfl).andThen (Reads.rest.andThen (.ifTrue rfl ?_))
  refine (Reads.op "&").andThen (Reads.rest.andThen (.ifFalse rfl ?_))
  exact (Reads.optWord_some "mut").andThen ((he.reads_unary hus).andThen (.pure rfl))

end Node

end WrapperGen.Source
