import WrapperGen.Proofs.Source.Built
/-!
# Built blocks are read back

Patterns, closures, branches and statements as they are built for generated code.
-/

namespace WrapperGen.Source

open Tree Grammar

/-! ## Patterns -/

/-- Whether a pattern is over before the trees. -/
def endsPattern : List Tree → Bool
  | [] => true
  | .leaf (.punct "=" _) _ :: _ => true
  | .leaf (.punct t false) _ :: _ => t == "," || t == ":" || t == "|"
  | _ => false

theorem endsPattern_cases {us : List Tree} (h : endsPattern us) :
    us = [] ∨ (∃ joint pos vs, us = .leaf (.punct "=" joint) pos :: vs) ∨
      (∃ pos vs, us = .leaf (.punct "," false) pos :: vs) ∨
      (∃ pos vs, us = .leaf (.punct ":" false) pos :: vs) ∨
      ∃ pos vs, us = .leaf (.punct "|" false) pos :: vs := by
  unfold endsPattern at h
  split at h
  · exact .inl rfl
  · exact .inr (.inl ⟨_, _, _, rfl⟩)
  · simp only [Bool.or_eq_true, beq_iff_eq] at h
    rcases h with (rfl | rfl) | rfl
    · exact .inr (.inr (.inl ⟨_, _, rfl⟩))
    · exact .inr (.inr (.inr (.inl ⟨_, _, rfl⟩)))
    · exact .inr (.inr (.inr (.inr ⟨_, _, rfl⟩)))
  · cases h

/-- A name before the end of a pattern is the whole pattern. -/
theorem endsPattern_binding {us : List Tree} (h : endsPattern us) :
    (peekOp "::" us || peekOp "!" us || peekGroup .brace us || peekGroup .paren us ||
      peekOp ".." us) = false ∧ peekOp "@" us = false := by
  rcases endsPattern_cases h with
    rfl | ⟨j, _, _, rfl⟩ | ⟨_, _, rfl⟩ | ⟨_, _, rfl⟩ | ⟨_, _, rfl⟩
  · exact ⟨rfl, rfl⟩
  · cases j <;> exact ⟨rfl, rfl⟩
  all_goals exact ⟨rfl, rfl⟩

namespace Node

/-- A pattern that begins with a word and is read back. -/
structure IsPattern (n : Node) : Prop where
  begins : ∃ w ts, n.trees = Tree.word w ++ ts
  reads : ∀ ⦃d us⦄, endsPattern us → Reads (ofDepth d).pattern (n.trees ++ us) us (· = n)

end Node

namespace Grammar

variable {g : Grammar} {us : List Tree} {name : String}

/-- No pattern but a name begins with one that nothing of its own follows. -/
theorem reads_singlePattern_name {Q : Node → Prop} (hname : isName name)
    (hus : endsPattern us)
    (h : Reads g.bindingPattern (word name ++ us) us Q) :
    Reads g.singlePattern (word name ++ us) us Q := by
  have hno {k : String} (hk : k ∈ keywords) : peekWord k (word name ++ us) = false :=
    peekWord_name us hname hk
  have hlit : peekLit (word name ++ us) = false := by
    change (name == "true" || name == "false") = false
    simp (disch := decide) [isName_ne hname]
  have hop {o : String} (ho : o ∈ ["::", "<", "-", "&", ".."]) :
      peekOp o (word name ++ us) = false := by
    simp only [List.mem_cons, List.not_mem_nil, or_false] at ho
    rcases ho with rfl | rfl | rfl | rfl | rfl <;> rfl
  obtain ⟨hus, -⟩ := endsPattern_binding hus
  unfold singlePattern
  refine Reads.rest.andThen ?_
  refine .ifFalse ?_ (.ifFalse (hno (by decide)) (.ifFalse (hno (by decide)) ?_))
  · change (peekName (word name ++ us) && (peekOp "::" us || peekOp "!" us ||
      peekGroup .brace us || peekGroup .paren us || peekOp ".." us) || _ || _ || _ || _) = false
    rw [hus]
    simp (disch := decide) [hno, hop]
  refine .ifFalse (by simp (disch := decide) [hno, hop, hlit]) ?_
  exact .ifTrue (by simp [peekName_name us hname]) h

theorem reads_bindingPattern (hname : isName name) (hus : endsPattern us) :
    Reads g.bindingPattern (word name ++ us) us (· = Node.binding name) := by
  unfold bindingPattern
  refine (Reads.optWord_none (peekWord_name us hname (by decide))).andThen ?_
  refine (Reads.optWord_none (peekWord_name us hname (by decide))).andThen ?_
  refine Reads.test.andThen (.ifFalse (peekWord_name us hname (by decide)) ?_)
  refine (Reads.name name).bind ?_
  rintro _ ⟨rfl, -⟩
  refine Reads.test.andThen (.ifFalse (endsPattern_binding hus).2 ?_)
  exact .andThen (a := .absent) (.pure rfl) (.pure rfl)

theorem reads_bindingPattern_mut (hname : isName name) (hus : endsPattern us) :
    Reads g.bindingPattern (word "mut" ++ (word name ++ us)) us (· = Node.bindingMut name) := by
  unfold bindingPattern
  refine (Reads.optWord_none rfl).andThen ((Reads.optWord_some "mut").andThen ?_)
  refine Reads.test.andThen (.ifFalse (peekWord_name us hname (by decide)) ?_)
  refine (Reads.name name).bind ?_
  rintro _ ⟨rfl, -⟩
  refine Reads.test.andThen (.ifFalse (endsPattern_binding hus).2 ?_)
  exact .andThen (a := .absent) (.pure rfl) (.pure rfl)

end Grammar

namespace Node

variable {name : String}

theorem isPattern_binding (hname : isName name) : (binding name).IsPattern where
  begins := ⟨name, [], by rw [trees_binding, List.append_nil]⟩
  reads
  | 0, _, _ => .failExpected
  | _ + 1, us, hus => by
    rw [trees_binding]
    exact reads_singlePattern_name hname hus (reads_bindingPattern hname hus)

theorem isPattern_bindingMut (hname : isName name) : (bindingMut name).IsPattern where
  begins := ⟨"mut", Tree.word name, trees_bindingMut name⟩
  reads
  | 0, _, _ => .failExpected
  | d + 1, us, hus => by
    rw [trees_bindingMut, List.append_assoc]
    change Reads (ofDepth d).singlePattern _ _ _
    unfold singlePattern
    refine Reads.rest.andThen ?_
    exact .ifFalse rfl (.ifFalse rfl (.ifFalse rfl (.ifFalse rfl
      (.ifTrue rfl (reads_bindingPattern_mut hname hus)))))

/-- A pattern is read alike where alternatives might follow, but do not. -/
theorem IsPattern.reads_patternWithBar {n : Node} (h : n.IsPattern) {d : Nat} {us : List Tree}
    (hus : endsPattern us) (hbar : peekOp "|" us = false) :
    Reads (ofDepth d).patternWithBar (n.trees ++ us) us (· = n) := by
  have hbegins : peekOp "|" (n.trees ++ us) = false := by
    obtain ⟨w, ts, htrees⟩ := h.begins
    rw [htrees]
    rfl
  unfold patternWithBar
  refine (Reads.optOp_none hbegins).andThen ((h.reads hus).andThen ?_)
  exact (Reads.manyWhile_nil (by simp [atAlternative, hbar])).andThen (.ifTrue rfl (.pure rfl))

theorem IsPattern.trees_ne_nil {n : Node} (h : n.IsPattern) : n.trees ≠ [] := by
  obtain ⟨w, ts, htrees⟩ := h.begins
  rw [htrees]
  exact List.cons_ne_nil _ _

theorem isPattern_holding {constructor : String} (hconstructor : isName constructor)
    (hname : isName name) : (holding constructor name).IsPattern where
  begins := ⟨constructor, _, trees_holding name constructor⟩
  reads
  | 0, _, _ => .failExpected
  | d + 1, us, _ => by
    have hwords : (Path.single constructor).IsWords :=
      Path.isWords_single (by simp [isPathWord, hconstructor])
    have hpath : Reads ((ofDepth d).qualifiedPath true)
        ((Path.single constructor).trees ++ (inParens [binding name] :: us))
        (inParens [binding name] :: us) (· = .inl (.single constructor)) :=
      reads_qualifiedPath hwords rfl
    have hlist : Reads (Reader.commaNodes (ofDepth d).patternWithBar)
        (nodesTrees (commaSeparated [binding name])) [] (· = commaSeparated [binding name]) := by
      refine reads_commaNodes (F := fun vs => endsPattern vs ∧ peekOp "|" vs = false) ⟨rfl, rfl⟩
        (fun _ => ⟨rfl, rfl⟩) fun n hn vs hvs => ?_
      rw [List.mem_singleton.1 hn]
      have hbinding : (binding name).IsPattern := isPattern_binding hname
      exact ⟨hbinding.trees_ne_nil, hbinding.reads_patternWithBar hvs.1 hvs.2⟩
    rw [Path.trees_single] at hpath
    have hpattern : Reads (ofDepth d).pathPattern
        (Tree.word constructor ++ (inParens [binding name] :: us)) us
        (· = holding constructor name) := by
      unfold pathPattern
      refine hpath.andThen (Reads.rest.andThen ?_)
      exact .ifFalse rfl (.ifFalse rfl (.ifTrue rfl ((Reads.within hlist).andThen (.pure rfl))))
    rw [trees_holding, List.append_assoc]
    change Reads (ofDepth d).singlePattern _ _ _
    unfold singlePattern
    refine Reads.rest.andThen (.ifTrue ?_ hpattern)
    simp [peekName, Tree.word, hconstructor, peekGroup, inParens]

end Node

/-! ## Blocks -/

namespace Grammar

/-- One run of `statementsWith`. -/
def statementStep (g : Grammar) : Reader (Option Node) := do
  if ← Reader.test (peekOp ";") then
    return some (.form .exprStmt [.absent, ← Reader.op ";"])
  if (← Reader.rest).isEmpty then return none
  let s ← g.statement
  if !(← Reader.rest).isEmpty && needsSemicolon s then
    Reader.failRule "unexpected token, expected `;`"
  return some s

theorem statementsWith_eq (g : Grammar) : g.statementsWith = Reader.many g.statementStep := rfl

end Grammar

namespace Node

/-- A statement that begins with a word and is read back at the end of its block. -/
structure IsLast (n : Node) : Prop where
  begins : ∃ w ts, n.trees = Tree.word w ++ ts
  reads : ∀ {d}, Reads (ofDepth d).statement n.trees [] (· = n)

/-- A statement that begins with a word and is read back, whatever follows. -/
structure IsClosed (n : Node) : Prop where
  begins : ∃ w ts, n.trees = Tree.word w ++ ts
  closed : needsSemicolon n = false
  reads : ∀ {d us}, Reads (ofDepth d).statement (n.trees ++ us) us (· = n)

/-- Statements that are read back up to the end of their block. -/
structure AreStatements (ns : List Node) : Prop where
  begins : peekOp "#" (nodesTrees ns) = false
  repeats : ∀ {d}, Repeats (ofDepth d).statementStep (nodesTrees ns) [] (· = ns)

theorem reads_statementStep {n : Node} {d : Nat} {us : List Tree}
    (hbegins : ∃ w ts, n.trees = Tree.word w ++ ts)
    (hread : Reads (ofDepth d).statement (n.trees ++ us) us (· = n))
    (hclosed : us = [] ∨ needsSemicolon n = false) :
    Reads (ofDepth d).statementStep (n.trees ++ us) us fun r => ∃ a, r = some a ∧ a = n := by
  obtain ⟨w, ts, htrees⟩ := hbegins
  unfold statementStep
  refine Reads.test.andThen (.ifFalse ?_ (Reads.rest.andThen (.ifFalse ?_ (hread.andThen ?_))))
  · rw [htrees]
    rfl
  · rw [htrees]
    rfl
  refine Reads.rest.andThen (.ifFalse ?_ (.pure ⟨n, rfl, rfl⟩))
  rcases hclosed with rfl | h
  · rfl
  · rw [h, Bool.and_false]

theorem length_lt {n : Node} {us : List Tree} (hbegins : ∃ w ts, n.trees = Tree.word w ++ ts) :
    us.length < (n.trees ++ us).length := by
  obtain ⟨w, ts, htrees⟩ := hbegins
  rw [htrees]
  simp only [Tree.word, List.cons_append, List.nil_append, List.length_cons, List.length_append]
  omega

theorem areStatements_nil : AreStatements [] := by
  refine ⟨rfl, fun {d} => ?_⟩
  have hend : Reads (ofDepth d).statementStep [] [] (· = none) := by
    unfold statementStep
    exact Reads.test.andThen (.ifFalse rfl (Reads.rest.andThen (.ifTrue rfl (.pure rfl))))
  exact Repeats.stop hend rfl

theorem areStatements_last {n : Node} (h : n.IsLast) : AreStatements [n] := by
  have htrees : nodesTrees [n] = n.trees ++ [] := rfl
  refine ⟨?_, fun {d} => ?_⟩
  · obtain ⟨w, ts, hw⟩ := h.begins
    rw [htrees, hw]
    rfl
  · rw [htrees]
    intro fuel hfuel
    have hread : Reads (ofDepth d).statement (n.trees ++ []) [] (· = n) := by
      rw [List.append_nil]
      exact h.reads
    refine (Repeats.step (reads_statementStep h.begins hread (.inl rfl)) (length_lt h.begins)
      (fun _ _ => areStatements_nil.repeats) hfuel).mono ?_
    rintro _ ⟨_, _, rfl, rfl, rfl⟩
    rfl

theorem areStatements_cons {n : Node} {ns : List Node} (h : n.IsClosed) (hns : AreStatements ns) :
    AreStatements (n :: ns) := by
  have htrees : nodesTrees (n :: ns) = n.trees ++ nodesTrees ns := rfl
  refine ⟨?_, fun {d} => ?_⟩
  · obtain ⟨w, ts, hw⟩ := h.begins
    rw [htrees, hw]
    rfl
  · rw [htrees]
    intro fuel hfuel
    refine (Repeats.step (reads_statementStep h.begins h.reads (.inr h.closed))
      (length_lt h.begins) (fun _ _ => hns.repeats) hfuel).mono ?_
    rintro _ ⟨_, _, rfl, rfl, rfl⟩
    rfl

theorem AreStatements.reads {ns : List Node} (h : AreStatements ns) {d : Nat} :
    Reads (ofDepth d).statements (nodesTrees ns) [] (· = ns) := by
  cases d with
  | zero => exact .failExpected
  | succ d => exact Reads.many h.repeats

/-- Statements in braces, as the body of an expression. -/
theorem AreStatements.reads_braces {ns : List Node} (h : AreStatements ns) {d : Nat}
    {us : List Tree} : Reads (ofDepth d).braces (inBraces ns :: us) us (· = braces ns) := by
  unfold Grammar.braces
  exact (Reads.within h.reads).andThen (.pure rfl)

/-- Statements in braces, as a block. -/
theorem AreStatements.reads_bodyBraces {ns : List Node} (h : AreStatements ns) {d : Nat}
    {us : List Tree} : Reads (ofDepth d).bodyBraces (inBraces ns :: us) us (· = braces ns) := by
  have hinner : Reads (ofDepth d).innerAttributes (nodesTrees ns) (nodesTrees ns) (· = []) :=
    .manyWhile_nil (by rw [h.begins, Bool.false_and])
  have hbody : Reads (do
      let attrs ← (ofDepth d).innerAttributes
      let body ← (ofDepth d).statements
      return attrs.map Attribute.innerNode ++ body) (nodesTrees ns) [] (· = ns) :=
    hinner.andThen (h.reads.andThen (.pure rfl))
  unfold bodyBraces
  exact (Reads.within hbody).andThen (.pure rfl)

end Node

/-! ## Statements -/

namespace Grammar

variable {g : Grammar} {w : String} {us : List Tree}

/-- A path of one word, if it can be one, ends where no colons follow. -/
theorem reads_plainPath (hus : peekOp "::" us = false) :
    Reads plainPath (word w ++ us) us fun _ => True := by
  unfold plainPath
  refine (Reads.op?_none rfl).andThen (Reads.test.andThen ?_)
  split
  · rename_i hbegins
    refine (Reads.name w).bind ?_
    rintro _ ⟨-, hname⟩
    simp [peekName_name us hname] at hbegins
  · refine (Reads.anyWord w).andThen ((Reads.manyWhile_nil (by simp [hus])).andThen ?_)
    exact Reads.test.andThen (.ifFalse hus (.pure trivial))

/-- Whether a word may begin a statement that is an operand. -/
def opensOperand (word : String) : Bool :=
  (isName word || word == "self") && !(["union", "auto", "default"].contains word)

/-- Whether a word may begin a statement that is an expression. -/
def opensExpr (word : String) : Bool := opensOperand word || word == "match" || word == "if"

theorem beginsItem_eq_false (hw : opensExpr w) : beginsItem (word w ++ us) = false := by
  simp only [opensExpr, opensOperand, Bool.or_eq_true, Bool.and_eq_true, beq_iff_eq] at hw
  rcases hw with (⟨hname | rfl, hother⟩ | rfl) | rfl
  · have hno {k : String} (hk : k ∈ keywords) : peekWord k (word w ++ us) = false :=
      peekWord_name us hname hk
    have hothers : (peekWord "union" (word w ++ us) = false ∧ peekWord "auto" (word w ++ us) = false) ∧
        peekWord "default" (word w ++ us) = false := by
      simpa [peekWord, word, and_assoc] using hother
    unfold beginsItem
    simp (disch := decide) [hno, hothers]
  all_goals rfl

theorem opensExpr_ne_let (hw : opensExpr w) : peekWord "let" (word w ++ us) = false := by
  simp only [opensExpr, opensOperand, Bool.or_eq_true, Bool.and_eq_true, beq_iff_eq] at hw
  rcases hw with (⟨hname | rfl, -⟩ | rfl) | rfl
  · exact peekWord_name us hname (by decide)
  all_goals rfl

theorem bare_form {form : Form} {parts : List Node} (h : form ≠ .attributed) :
    (Node.form form parts).bare = .form form parts := by
  unfold Node.bare
  split
  · rename_i heq
    cases heq
    exact absurd rfl h
  · rfl

/-- A statement that is an expression is read by the reader of such. -/
theorem reads_statement_expr {form : Form} {parts : List Node} {Q : Node → Prop}
    {us vs ws : List Tree} (hw : opensExpr w) (hcolons : peekOp "::" us = false)
    (hbang : peekOp "!" us = false)
    (he : Reads g.earlyWith (word w ++ us) vs (· = .form form parts)) (hattr : form ≠ .attributed)
    (hinvocation : form ≠ .invocation)
    (h : Reads (Reader.optOp ";") vs ws fun semi => Q (.form .exprStmt [.form form parts, semi])) :
    Reads g.statement (word w ++ us) ws Q := by
  unfold statement
  refine Reads.rest.andThen ((reads_outerAttributes rfl).andThen (Reads.rest.andThen ?_))
  refine (Reads.ahead? (reads_plainPath hcolons)).bind fun named hnamed => ?_
  have hafter : peekOp "!" ((named.map (·.2.rest)).getD []) = false := by
    cases named with
    | none => rfl
    | some r => simp [(hnamed r.1 r.2 rfl).2, hbang]
  refine .ifFalse (by simp [hafter]) (.ifFalse (opensExpr_ne_let hw) ?_)
  refine .ifFalse (by simp [beginsItem_eq_false hw, hafter]) (he.andThen ?_)
  refine h.bind fun semi hQ => ?_
  rw [show Node.withAttributes [] (.form form parts) = .form form parts from rfl, bare_form hattr]
  split
  · rename_i heq
    cases heq
    exact absurd rfl hinvocation
  · exact .pure hQ

end Grammar

namespace Node

/-- An expression that is read back in the place of a statement where `F` holds of what follows. -/
structure IsEarly (n : Node) (F : List Tree → Prop) : Prop where
  begins : ∃ w ts, n.trees = Tree.word w ++ ts ∧ opensExpr w ∧
    ∀ us, peekOp "::" (ts ++ us) = false ∧ peekOp "!" (ts ++ us) = false
  form : ∃ form parts, n = .form form parts ∧ form ≠ .attributed ∧ form ≠ .invocation
  reads : ∀ ⦃d us⦄, F us → Reads (ofDepth d).earlyWith (n.trees ++ us) us (· = n)

variable {e pat : Node} {F : List Tree → Prop}

theorem isClosed_statement (he : e.IsEarly F) (hF : ∀ us, F (Tree.op ";" ++ us)) :
    (statement e).IsClosed := by
  obtain ⟨w, ts, htrees, hw, hts⟩ := he.begins
  obtain ⟨form, parts, rfl, hattr, hinvocation⟩ := he.form
  refine ⟨⟨w, ts ++ Tree.op ";", ?_⟩, rfl, fun {d us} => ?_⟩
  · rw [trees_statement, htrees, List.append_assoc]
  · have hread := he.reads (d := d) (hF us)
    rw [trees_statement, List.append_assoc]
    rw [htrees, List.append_assoc] at hread ⊢
    exact reads_statement_expr hw (hts _).1 (hts _).2 hread hattr hinvocation
      ((Reads.optOp_some ";").mono (by rintro _ rfl; rfl))

theorem isLast_value (he : e.IsEarly F) (hF : F []) : (value e).IsLast := by
  obtain ⟨w, ts, htrees, hw, hts⟩ := he.begins
  obtain ⟨form, parts, rfl, hattr, hinvocation⟩ := he.form
  refine ⟨⟨w, ts, ?_⟩, fun {d} => ?_⟩
  · rw [trees_value, htrees]
  · have hread := he.reads (d := d) hF
    obtain ⟨hcolons, hbang⟩ := hts []
    rw [List.append_nil] at hread hcolons hbang
    rw [trees_value]
    rw [htrees] at hread ⊢
    exact reads_statement_expr hw hcolons hbang hread hattr hinvocation
      ((Reads.optOp_none rfl).mono (by rintro _ rfl; rfl))

theorem isClosed_bind (hpat : pat.IsPattern) (he : e.IsExpr) : (bind pat e).IsClosed := by
  refine ⟨⟨"let", _, trees_bind e pat⟩, rfl, fun {d us} => ?_⟩
  have hcolons (us : List Tree) : peekOp "::" (pat.trees ++ us) = false ∧
      peekOp "!" (pat.trees ++ us) = false := by
    obtain ⟨w, ts, htrees⟩ := hpat.begins
    rw [htrees]
    exact ⟨rfl, rfl⟩
  have hlet : Reads ((ofDepth d).letStatement [])
      (Tree.word "let" ++ (pat.trees ++ (Tree.op "=" ++ (e.trees ++ (Tree.op ";" ++ us))))) us
      (· = bind pat e) := by
    unfold letStatement
    refine (Reads.word "let").andThen ((hpat.reads rfl).andThen ?_)
    refine Reads.test.andThen (.ifFalse rfl (.andThen (a := pat) (.pure rfl) ?_))
    refine Reads.test.andThen (.ifTrue rfl ((Reads.op "=").andThen ((he.reads rfl).andThen ?_)))
    have helse : peekWord "else" (Tree.op ";" ++ us) = false := rfl
    refine Reads.test.andThen (.ifFalse (by rw [helse, Bool.and_false]) ?_)
    refine .andThen (a := .form .row [op "=", e]) (.pure rfl) ((Reads.op ";").andThen ?_)
    exact .pure rfl
  rw [trees_bind, List.append_assoc, List.append_assoc, List.append_assoc, List.append_assoc]
  unfold Grammar.statement
  refine Reads.rest.andThen ((reads_outerAttributes rfl).andThen (Reads.rest.andThen ?_))
  refine (Reads.ahead? (reads_plainPath (hcolons _).1)).bind fun named hnamed => ?_
  have hafter : peekOp "!" ((named.map (·.2.rest)).getD []) = false := by
    cases named with
    | none => rfl
    | some r => rw [Option.map_some, Option.getD_some, (hnamed r.1 r.2 rfl).2, (hcolons _).2]
  exact .ifFalse (by simp [hafter]) (.ifTrue rfl hlet)

end Node

/-! ## Expressions in the place of statements -/

namespace Grammar

variable {g : Grammar} {w : String} {us vs : List Tree} {Q : Node → Prop}

/-- An operand in the place of a statement is an expression like others. -/
theorem reads_earlyWith_operand {e : Node} (hw : opensOperand w)
    (he : Reads (g.unaryWith true) (word w ++ us) vs (· = e)) (hvs : endsExpr true vs) :
    Reads g.earlyWith (word w ++ us) vs (· = e) := by
  have hno {k : String} (hk : k ∈ ["if", "while", "for", "loop", "match", "try", "unsafe", "const"]) :
      peekWord k (word w ++ us) = false := by
    simp only [opensOperand, Bool.or_eq_true, Bool.and_eq_true, beq_iff_eq] at hw
    rcases hw with ⟨hname | rfl, -⟩
    · refine peekWord_name us hname ?_
      simp only [List.mem_cons, List.not_mem_nil, or_false] at hk
      rcases hk with rfl | rfl | rfl | rfl | rfl | rfl | rfl | rfl <;> decide
    · simp only [List.mem_cons, List.not_mem_nil, or_false] at hk
      rcases hk with rfl | rfl | rfl | rfl | rfl | rfl | rfl | rfl <;> rfl
  have hbrace : peekGroup .brace (word w ++ us) = false := rfl
  have hlifetime : peekLifetime (word w ++ us) = false := rfl
  unfold earlyWith
  refine (reads_outerAttributes rfl).andThen (Reads.rest.andThen ?_)
  simp only [List.mem_cons, List.not_mem_nil, or_false, true_or, or_true, hno, hbrace, hlifetime,
    Bool.false_and, Bool.false_eq_true, if_false]
  exact he.andThen (reads_climbHere hvs)

/-- Whether nothing goes on with a block that is an expression before the trees. -/
def endsBlock (ts : List Tree) : Bool := !(peekOp "." ts && !peekOp ".." ts) && !peekOp "?" ts

/-- A block-like expression in the place of a statement ends there. -/
theorem reads_afterBlock {e : Node} (hus : endsBlock us) :
    Reads (do
      let ts ← Reader.rest
      if (peekOp "." ts && !peekOp ".." ts) || peekOp "?" ts then
        let e ← g.trailers (ts.length + 1) e
        g.climbHere (e.withAttributes []) true Level.jump
      else return e.withAttributes []) us us (· = e) := by
  refine Reads.rest.andThen (.ifFalse ?_ (.pure rfl))
  simp only [endsBlock, Bool.and_eq_true, Bool.not_eq_true'] at hus
  rw [hus.1, hus.2, Bool.or_false]

theorem reads_earlyWith_match {e : Node}
    (he : Reads g.matchExpr (word "match" ++ us) vs (· = e)) (hvs : endsBlock vs) :
    Reads g.earlyWith (word "match" ++ us) vs (· = e) := by
  unfold earlyWith
  refine (reads_outerAttributes rfl).andThen (Reads.rest.andThen ?_)
  exact he.andThen (reads_afterBlock hvs)

theorem reads_earlyWith_block {e : Node} {ts : List Tree}
    (he : Reads (g.blockExpr .absent) (.group .brace ts noPos noPos :: us) vs (· = e))
    (hvs : endsBlock vs) :
    Reads g.earlyWith (.group .brace ts noPos noPos :: us) vs (· = e) := by
  unfold earlyWith
  refine (reads_outerAttributes rfl).andThen (Reads.rest.andThen ?_)
  exact he.andThen (reads_afterBlock hvs)

end Grammar

/-! ## Branches -/

theorem nodesTrees_eq_flatMap (ns : List Node) : nodesTrees ns = ns.flatMap Node.trees := by
  induction ns with
  | nil => rfl
  | cons n ns ih => rw [nodesTrees_cons, ih, List.flatMap_cons]

/-- Whether an arm without a comma is over before the trees. -/
def endsArm : List Tree → Bool
  | [] => true
  | .leaf (.ident _) _ :: _ => true
  | _ => false

namespace Node

/-- An arm that begins with a word and is read back. -/
structure IsArm (n : Node) : Prop where
  begins : ∃ w ts, n.trees = Tree.word w ++ ts
  reads : ∀ ⦃d us⦄, endsArm us → Reads (ofDepth d).arm (n.trees ++ us) us (· = n)

/-- A block-like expression that is read back in the place of a statement. -/
structure IsBlockEarly (n : Node) : Prop where
  blockLike : n.isBlockLike
  reads : ∀ ⦃d us⦄, endsBlock us → Reads (ofDepth d).early (n.trees ++ us) us (· = n)

variable {e pat body : Node} {arms ns ms : List Node}

/-- An arm up to its comma. -/
theorem reads_arm {Q : Node → Prop} {d : Nat} {us vs : List Tree} (hpat : pat.IsPattern)
    (hbody : body.IsBlockEarly) (hus : endsBlock us)
    (h : Reads (Reader.optOp ",") us vs fun comma =>
      Q (.form .arm [.absent, pat, .absent, op "=>", body, comma])) :
    Reads (ofDepth d).arm (pat.trees ++ (Tree.op "=>" ++ (body.trees ++ us))) vs Q := by
  have hhash : peekOp "#" (pat.trees ++ (Tree.op "=>" ++ (body.trees ++ us))) = false := by
    obtain ⟨w, ts, htrees⟩ := hpat.begins
    rw [htrees]
    rfl
  unfold Grammar.arm
  refine (reads_outerAttributes hhash).andThen ((hpat.reads_patternWithBar rfl rfl).andThen ?_)
  refine Reads.test.andThen (.ifFalse rfl (.andThen (a := .absent) (.pure rfl) ?_))
  refine (Reads.op "=>").andThen ((hbody.reads hus).andThen (Reads.rest.andThen ?_))
  refine .ifFalse (by rw [hbody.blockLike]; rfl) ?_
  exact h.bind fun comma hQ => .pure hQ

theorem isArm_arm (hpat : pat.IsPattern) (hbody : body.IsBlockEarly) : (arm pat body).IsArm := by
  obtain ⟨w, ts, htrees⟩ := hpat.begins
  refine ⟨⟨w, ts ++ (Tree.op "=>" ++ body.trees), ?_⟩, fun d us hus => ?_⟩
  · rw [trees_arm, htrees, List.append_assoc]
  · have hends : endsBlock us ∧ peekOp "," us = false := by
      unfold endsArm at hus
      split at hus
      · exact ⟨rfl, rfl⟩
      · exact ⟨rfl, rfl⟩
      · cases hus
    rw [trees_arm, List.append_assoc, List.append_assoc]
    exact reads_arm hpat hbody hends.1
      ((Reads.optOp_none hends.2).mono (by rintro _ rfl; rfl))

theorem isArm_armComma (hpat : pat.IsPattern) (hbody : body.IsBlockEarly) :
    (armComma pat body).IsArm := by
  obtain ⟨w, ts, htrees⟩ := hpat.begins
  refine ⟨⟨w, ts ++ (Tree.op "=>" ++ (body.trees ++ Tree.op ",")), ?_⟩, fun d us _ => ?_⟩
  · rw [trees_armComma, htrees, List.append_assoc]
  · rw [trees_armComma, List.append_assoc, List.append_assoc, List.append_assoc]
    exact reads_arm hpat hbody rfl ((Reads.optOp_some ",").mono (by rintro _ rfl; rfl))

theorem reads_arms {d : Nat} (harms : ∀ a ∈ arms, a.IsArm) :
    Reads (do
      let attrs ← (ofDepth d).innerAttributes
      let arms ← Reader.manyWhile (!·.isEmpty) (ofDepth d).arm
      return attrs.map Attribute.innerNode ++ arms) (nodesTrees arms) [] (· = arms) := by
  have hbegins : ∀ bs : List Node, (∀ b ∈ bs, b.IsArm) →
      endsArm (bs.flatMap Node.trees ++ []) ∧ peekOp "#" (bs.flatMap Node.trees ++ []) = false := by
    intro bs hbs
    cases bs with
    | nil => exact ⟨rfl, rfl⟩
    | cons b bs =>
      obtain ⟨w, ts, htrees⟩ := (hbs b (.head _)).begins
      rw [List.flatMap_cons, htrees]
      exact ⟨rfl, rfl⟩
  have hmany : Reads (Reader.manyWhile (!·.isEmpty) (ofDepth d).arm)
      (arms.flatMap Node.trees ++ []) [] (· = arms) := by
    refine .many (.items (.ends rfl) (fun a bs hsuffix => ?_) fun a ha => ?_)
    · have ha := harms a (hsuffix.subset (.head _))
      have hbs : ∀ b ∈ bs, b.IsArm := fun b hb => harms b (hsuffix.subset (.tail _ hb))
      refine (Reads.goes ?_ (P := (· = a)) (ha.reads (hbegins bs hbs).1)).mono ?_
      · obtain ⟨w, ts, htrees⟩ := ha.begins
        rw [htrees]
        rfl
      · rintro _ ⟨_, rfl, rfl⟩
        rfl
    · obtain ⟨w, ts, htrees⟩ := (harms a ha).begins
      rw [htrees]
      exact List.cons_ne_nil _ _
  have hattrs : Reads (ofDepth d).innerAttributes (arms.flatMap Node.trees ++ [])
      (arms.flatMap Node.trees ++ []) (· = []) :=
    .manyWhile_nil (by rw [(hbegins arms harms).2, Bool.false_and])
  rw [nodesTrees_eq_flatMap, ← List.append_nil (arms.flatMap Node.trees)]
  exact hattrs.andThen (hmany.andThen (.pure rfl))

theorem reads_matchExpr {d : Nat} {us : List Tree} (he : e.IsExpr) (harms : ∀ a ∈ arms, a.IsArm) :
    Reads (ofDepth d).matchExpr (Tree.word "match" ++ (e.trees ++ (inBraces arms :: us))) us
      (· = matchOn e arms) := by
  unfold Grammar.matchExpr
  refine (Reads.word "match").andThen ((he.reads rfl).andThen ?_)
  exact (Reads.within (reads_arms harms)).andThen (.pure rfl)

theorem reads_early {d : Nat} {ts us : List Tree} {Q : Node → Prop}
    (h : ∀ {d}, Reads (ofDepth d).earlyWith ts us Q) : Reads (ofDepth d).early ts us Q := by
  cases d with
  | zero => exact .failExpected
  | succ d => exact h

theorem isBlockEarly_block (hns : AreStatements ns) : (block ns).IsBlockEarly where
  blockLike := rfl
  reads _ us hus := by
    rw [trees_block]
    refine reads_early fun {d} => ?_
    have hblock : Reads ((ofDepth d).blockExpr .absent) (inBraces ns :: us) us (· = block ns) := by
      unfold blockExpr
      exact hns.reads_bodyBraces.andThen (.pure rfl)
    exact reads_earlyWith_block hblock hus

theorem reads_ifElse {d fuel : Nat} {us : List Tree} (he : e.IsExpr) (hns : AreStatements ns)
    (hms : AreStatements ms) :
    Reads ((ofDepth d).ifExpr (fuel + 1)) ((ifElse e ns ms).trees ++ us) us
      (· = ifElse e ns ms) := by
  rw [trees_ifElse]
  simp only [List.append_assoc, List.cons_append, List.nil_append]
  unfold Grammar.ifExpr
  refine (Reads.word "if").andThen ((he.reads rfl).andThen (hns.reads_braces.andThen ?_))
  refine Reads.test.andThen (.ifFalse rfl ((Reads.word "else").andThen (Reads.rest.andThen ?_)))
  exact .ifFalse rfl (.ifTrue rfl (hms.reads_braces.andThen (.andThen (.pure rfl) (.pure rfl))))

/-- A condition that takes a value apart. -/
def letCond (pattern e : Node) : Node := .form .letCond [word "let", pattern, op "=", e]

theorem trees_letCond :
    (letCond pat e).trees = Tree.word "let" ++ (pat.trees ++ (Tree.op "=" ++ e.trees)) := by
  simp [letCond]

theorem isUnary_letCond (hpat : pat.IsPattern) (he : e.IsUnary) : (letCond pat e).IsUnary := by
  intro d struct us hus
  have hclimb : Reads ((ofDepth d).climb e struct Level.compare) us us (· = e) := by
    cases d with
    | zero => exact .failExpected
    | succ d => exact reads_climbHere hus
  have hlet : Reads ((ofDepth d).letCond struct)
      (Tree.word "let" ++ (pat.trees ++ (Tree.op "=" ++ (e.trees ++ us)))) us
      (· = letCond pat e) := by
    unfold Grammar.letCond
    refine (Reads.word "let").andThen ((hpat.reads_patternWithBar rfl rfl).andThen ?_)
    exact (Reads.op "=").andThen ((he.reads_unary hus).andThen (hclimb.andThen (.pure rfl)))
  rw [trees_letCond, List.append_assoc, List.append_assoc, List.append_assoc]
  refine reads_unaryWith rfl rfl rfl ?_ fun _ => trailers_ends hus
  unfold atom
  refine Reads.rest.andThen ?_
  iterate 11 refine .ifFalse rfl ?_
  exact .ifTrue rfl hlet

theorem reads_ifLet {d fuel : Nat} {us : List Tree} (hpat : pat.IsPattern) (he : e.IsUnary)
    (hns : AreStatements ns) (hus : peekWord "else" us = false) :
    Reads ((ofDepth d).ifExpr (fuel + 1)) ((ifLet pat e ns).trees ++ us) us (· = ifLet pat e ns) := by
  have hne : (letCond pat e).trees ≠ [] := by
    rw [trees_letCond]
    exact List.cons_ne_nil _ _
  have hcond : (letCond pat e).IsExpr := (isUnary_letCond hpat he).isExpr hne
  have htrees : (ifLet pat e ns).trees ++ us =
      Tree.word "if" ++ ((letCond pat e).trees ++ (inBraces ns :: us)) := by
    rw [trees_ifLet, trees_letCond]
    simp
  rw [htrees]
  unfold Grammar.ifExpr
  refine (Reads.word "if").andThen ((hcond.reads rfl).andThen (hns.reads_braces.andThen ?_))
  exact Reads.test.andThen (.ifTrue (by rw [hus]; rfl) (.pure rfl))

/-! ## Blocks, closures and branches as expressions -/

theorem isUnary_matchOn (he : e.IsExpr) (harms : ∀ a ∈ arms, a.IsArm) :
    (matchOn e arms).IsUnary := by
  intro d struct us hus
  have hmatch : Reads (ofDepth d).matchExpr (Tree.word "match" ++ (e.trees ++ (inBraces arms :: us)))
      us (· = matchOn e arms) := reads_matchExpr he harms
  rw [trees_matchOn, List.append_assoc, List.append_assoc]
  refine reads_unaryWith rfl rfl rfl ?_ fun _ => trailers_ends hus
  unfold atom
  refine Reads.rest.andThen ?_
  iterate 16 refine .ifFalse rfl ?_
  exact .ifTrue rfl hmatch

theorem isUnary_block (hns : AreStatements ns) : (block ns).IsUnary := by
  intro d struct us hus
  have hblock : Reads ((ofDepth d).blockExpr .absent) (inBraces ns :: us) us (· = block ns) := by
    unfold blockExpr
    exact hns.reads_bodyBraces.andThen (.pure rfl)
  rw [trees_block]
  refine reads_unaryWith rfl rfl rfl ?_ fun _ => trailers_ends hus
  unfold atom
  refine Reads.rest.andThen ?_
  iterate 20 refine .ifFalse rfl ?_
  exact .ifTrue rfl hblock

theorem isUnary_asyncMove (hns : AreStatements ns) : (asyncMove ns).IsUnary := by
  intro d struct us hus
  have hbraces : Reads (ofDepth d).braces (inBraces ns :: us) us (· = braces ns) :=
    hns.reads_braces
  rw [trees_asyncMove, List.append_assoc, List.append_assoc]
  refine reads_unaryWith rfl rfl rfl ?_ fun _ => trailers_ends hus
  unfold atom
  refine Reads.rest.andThen (.ifFalse rfl (.ifTrue rfl ?_))
  refine (Reads.word "async").andThen ((Reads.optWord_some "move").andThen ?_)
  exact hbraces.andThen (.pure rfl)

theorem reads_closureParam {d : Nat} {us : List Tree} (hpat : pat.IsPattern)
    (hus : endsPattern us) (hcolon : peekOp ":" us = false) :
    Reads (ofDepth d).closureParam (pat.trees ++ us) us (· = pat) := by
  have hhash : peekOp "#" (pat.trees ++ us) = false := by
    obtain ⟨w, ts, htrees⟩ := hpat.begins
    rw [htrees]
    rfl
  unfold closureParam
  refine (reads_outerAttributes hhash).andThen ((hpat.reads hus).andThen ?_)
  exact Reads.test.andThen (.ifFalse hcolon (.andThen (.pure rfl) (.pure rfl)))

theorem reads_closure {d : Nat} {struct moves : Bool} {params : List Node} {us : List Tree}
    (hparams : ∀ p ∈ params, p.IsPattern) (hbody : body.IsExpr)
    (harrow : peekOp "->" (body.trees ++ us) = false) (hus : endsExpr struct us) :
    Reads ((ofDepth d).closure struct) ((closure moves params body).trees ++ us) us
      (· = closure moves params body) := by
  have hlist : Reads (Reader.separatedUntil (peekOp "|") (ofDepth d).closureParam ",")
      (nodesTrees (commaSeparated params) ++ (Tree.op "|" ++ (body.trees ++ us)))
      (Tree.op "|" ++ (body.trees ++ us)) (· = (params, false)) := by
    rw [nodesTrees_commaSeparated]
    refine Reads.separatedUntil (F := fun vs => endsPattern vs ∧ peekOp ":" vs = false) rfl
      ⟨rfl, rfl⟩ (fun _ => ⟨rfl, rfl⟩) (fun _ => rfl) (fun p hp => (hparams p hp).trees_ne_nil)
      fun p hp vs hvs => ⟨?_, reads_closureParam (hparams p hp) hvs.1 hvs.2⟩
    obtain ⟨w, ts, htrees⟩ := (hparams p hp).begins
    rw [htrees]
    rfl
  have hmove {k : String} (hk : k ≠ "move") : peekWord k (when moves (Tree.word "move") ++
      (Tree.op "|" ++ (nodesTrees (commaSeparated params) ++ (Tree.op "|" ++ (body.trees ++ us))))) =
      false := by
    cases moves
    · rfl
    · simpa [peekWord, Tree.word, when] using hk.symm
  rw [trees_closure, List.append_assoc, List.append_assoc, List.append_assoc, List.append_assoc]
  unfold Grammar.closure
  refine (reads_binderHere_none (hmove (by decide))).andThen ?_
  refine (Reads.optWord_none (hmove (by decide))).andThen ?_
  refine (Reads.optWord_none (hmove (by decide))).andThen ?_
  refine (Reads.optWord_none (hmove (by decide))).andThen ?_
  refine (Reads.optWord_when rfl).andThen ((Reads.op "|").andThen (hlist.andThen ?_))
  refine (Reads.op "|").andThen (Reads.test.andThen (.ifFalse harrow ?_))
  exact (hbody.reads hus).andThen (.pure (by simp [closure]))

theorem isUnary_closure {moves : Bool} {params : List Node} (hparams : ∀ p ∈ params, p.IsPattern)
    (hbody : body.IsExpr) (harrow : ∀ us, peekOp "->" (body.trees ++ us) = false) :
    (closure moves params body).IsUnary := by
  intro d struct us hus
  have hclosure : Reads ((ofDepth d).closure struct) ((closure moves params body).trees ++ us) us
      (· = closure moves params body) := reads_closure hparams hbody (harrow us) hus
  rw [trees_closure, List.append_assoc, List.append_assoc, List.append_assoc, List.append_assoc]
    at hclosure ⊢
  cases moves <;>
  · refine reads_unaryWith rfl rfl rfl ?_ fun _ => trailers_ends hus
    unfold atom
    refine Reads.rest.andThen ?_
    exact .ifFalse rfl (.ifFalse rfl (.ifFalse rfl (.ifTrue rfl hclosure)))

/-! ## Expressions that stand as statements -/

/-- An operand that may stand as a statement. -/
structure Opens (n : Node) : Prop where
  begins : ∃ w ts, n.trees = Tree.word w ++ ts ∧ opensOperand w ∧
    ∀ us, peekOp "::" (ts ++ us) = false ∧ peekOp "!" (ts ++ us) = false
  form : ∃ form parts, n = .form form parts ∧ form ≠ .attributed ∧ form ≠ .invocation

variable {name : String} {args : List Node}

theorem opens_call {f : String} (hf : opensOperand f) : (call (named f) args).Opens :=
  ⟨⟨f, [inParens args], by rw [trees_call, trees_named], hf, fun _ => ⟨rfl, rfl⟩⟩,
    _, _, rfl, by decide, by decide⟩

theorem opens_invoke {receiver : String} (hreceiver : opensOperand receiver) :
    (invoke (named receiver) name args).Opens :=
  ⟨⟨receiver, Tree.op "." ++ (Tree.word name ++ [inParens args]),
    by rw [trees_invoke, trees_named], hreceiver, fun _ => ⟨rfl, rfl⟩⟩,
    _, _, rfl, by decide, by decide⟩

theorem Opens.await (h : e.Opens) : (Node.await e).Opens := by
  obtain ⟨⟨w, ts, htrees, hw, hts⟩, -⟩ := h
  refine ⟨⟨w, ts ++ (Tree.op "." ++ Tree.word "await"), ?_, hw, fun us => ?_⟩,
    _, _, rfl, by decide, by decide⟩
  · rw [trees_await, htrees, List.append_assoc]
  · rw [List.append_assoc]
    exact hts _

theorem IsOperand.isEarly (he : e.IsOperand) (hopens : e.Opens) :
    e.IsEarly fun us => endsExpr true us := by
  obtain ⟨⟨w, ts, htrees, hw, hts⟩, hform⟩ := hopens
  refine ⟨⟨w, ts, htrees, by simp [opensExpr, hw], hts⟩, hform, fun d us hus => ?_⟩
  have hread : Reads ((ofDepth d).unaryWith true) (e.trees ++ us) us (· = e) := he.isUnary hus
  rw [htrees, List.append_assoc] at hread ⊢
  exact reads_earlyWith_operand hw hread hus

theorem isEarly_matchOn (he : e.IsExpr) (hbegins : ∃ w ts, e.trees = Tree.word w ++ ts)
    (harms : ∀ a ∈ arms, a.IsArm) : (matchOn e arms).IsEarly fun us => endsBlock us := by
  obtain ⟨w, ts, htrees⟩ := hbegins
  refine ⟨⟨"match", _, trees_matchOn e arms, rfl, fun us => ?_⟩,
    ⟨_, _, rfl, by decide, by decide⟩, fun d us hus => ?_⟩
  · rw [htrees]
    exact ⟨rfl, rfl⟩
  · rw [trees_matchOn, List.append_assoc, List.append_assoc]
    exact reads_earlyWith_match (reads_matchExpr he harms) hus

theorem reads_earlyWith_if {g : Grammar} {ts us : List Tree}
    (he : ∀ fuel, Reads (g.ifExpr (fuel + 1)) (Tree.word "if" ++ ts) us (· = e))
    (hus : endsBlock us) : Reads g.earlyWith (Tree.word "if" ++ ts) us (· = e) := by
  unfold earlyWith
  refine (reads_outerAttributes rfl).andThen (Reads.rest.andThen ?_)
  exact (he _).andThen (reads_afterBlock hus)

theorem isEarly_ifLet (hpat : pat.IsPattern) (he : e.IsUnary) (hns : AreStatements ns) :
    (ifLet pat e ns).IsEarly fun us => endsBlock us ∧ peekWord "else" us = false := by
  refine ⟨⟨"if", _, trees_ifLet e pat ns, rfl, fun us => ⟨rfl, rfl⟩⟩,
    ⟨_, _, rfl, by decide, by decide⟩, fun d us hus => ?_⟩
  have hread (fuel : Nat) : Reads ((ofDepth d).ifExpr (fuel + 1)) ((ifLet pat e ns).trees ++ us) us
      (· = ifLet pat e ns) := reads_ifLet hpat he hns hus.2
  rw [trees_ifLet, List.append_assoc] at hread ⊢
  exact reads_earlyWith_if hread hus.1

theorem isBlockEarly_ifElse (he : e.IsExpr) (hns : AreStatements ns) (hms : AreStatements ms) :
    (ifElse e ns ms).IsBlockEarly where
  blockLike := rfl
  reads _ us hus := reads_early fun {d} => by
    have hread (fuel : Nat) : Reads ((ofDepth d).ifExpr (fuel + 1)) ((ifElse e ns ms).trees ++ us) us
        (· = ifElse e ns ms) := reads_ifElse he hns hms
    rw [trees_ifElse, List.append_assoc] at hread ⊢
    exact reads_earlyWith_if hread hus

end Node

end WrapperGen.Source
