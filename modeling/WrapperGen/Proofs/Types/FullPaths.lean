import WrapperGen.Proofs.Source.Names
import WrapperGen.Service.Resolve
/-!
# Full paths

The text of a path is its names with colons between them, and names without colons can be read off
it again (`joinNames_inj`, `splitLast?_concat`). What a path means in a module is what its front
means there, followed by its other names (`absolute_cons`, for a front that is no keyword). So two
resolvers that agree on the front of a path agree on the path (`absolute_congr`), and names added to
a path are added to what it means (`absolute_append`).
-/

namespace WrapperGen

/-! ## Texts with colons -/

namespace Text

theorem splitOn_colons_append {acc xs : List Char} (hxs : ':' ∉ xs) (ys : List Char) :
    splitOn [':', ':'] 0 acc (xs ++ ':' :: ':' :: ys) =
      (acc.reverse ++ xs) :: splitOn [':', ':'] 0 [] ys := by
  induction xs generalizing acc with
  | nil => simp [splitOn, List.isPrefixOf]
  | cons c xs ih =>
    rw [List.mem_cons, not_or] at hxs
    have hc : [':', ':'].isPrefixOf (c :: (xs ++ ':' :: ':' :: ys)) = false := by
      simp [List.isPrefixOf, hxs.1]
    rw [List.cons_append, splitOn, if_neg (by rw [hc]; decide), ih hxs.2]
    simp

theorem splitOn_colons_last {acc xs : List Char} (hxs : ':' ∉ xs) :
    splitOn [':', ':'] 0 acc xs = [acc.reverse ++ xs] := by
  induction xs generalizing acc with
  | nil => simp [splitOn]
  | cons c xs ih =>
    rw [List.mem_cons, not_or] at hxs
    have hc : [':', ':'].isPrefixOf (c :: xs) = false := by
      simp [List.isPrefixOf, hxs.1]
    rw [splitOn, if_neg (by rw [hc]; decide), ih hxs.2]
    simp

/-- Parts without colons are found again between the colons. -/
theorem splitOn_colons_intercalate {parts : List (List Char)} (hparts : parts ≠ [])
    (h : ∀ part ∈ parts, ':' ∉ part) :
    splitOn [':', ':'] 0 [] ([':', ':'].intercalate parts) = parts := by
  induction parts with
  | nil => exact absurd rfl hparts
  | cons part parts ih =>
    have hpart := h part (.head _)
    cases parts with
    | nil =>
      rw [List.intercalate_singleton]
      exact splitOn_colons_last hpart
    | cons next parts =>
      have hrest := ih (List.cons_ne_nil _ _) fun s hs => h s (.tail _ hs)
      rw [List.intercalate_cons_cons, List.append_assoc]
      exact (splitOn_colons_append hpart _).trans (congrArg _ hrest)

theorem splitOn_ne_nil_of_skip {sep : List Char} (skip : Nat) (acc xs : List Char) :
    splitOn sep skip acc xs ≠ [] := by
  fun_induction splitOn sep skip acc xs <;> simp [*]

/-- A text is its parts with the colons between them. -/
theorem intercalate_splitOn_colons : ∀ acc xs : List Char,
    [':', ':'].intercalate (splitOn [':', ':'] 0 acc xs) = acc.reverse ++ xs
  | acc, [] => by simp [splitOn]
  | acc, [c] => by
    rw [splitOn, if_neg (by simp [List.isPrefixOf]), splitOn]
    simp
  | acc, c :: d :: xs => by
    by_cases hcolons : c = ':' ∧ d = ':'
    · obtain ⟨rfl, rfl⟩ := hcolons
      have hrest := intercalate_splitOn_colons [] xs
      have hsplit : splitOn [':', ':'] 0 acc (':' :: ':' :: xs) =
          (acc.reverse ++ []) :: splitOn [':', ':'] 0 [] xs :=
        splitOn_colons_append List.not_mem_nil xs
      rw [List.append_nil] at hsplit
      obtain ⟨part, parts, hparts⟩ : ∃ part parts,
          splitOn [':', ':'] 0 [] xs = part :: parts :=
        List.exists_cons_of_ne_nil (splitOn_ne_nil_of_skip 0 [] xs)
      rw [hsplit, hparts, List.intercalate_cons_cons, ← hparts, hrest]
      simp
    · rw [splitOn, if_neg (by simpa [List.isPrefixOf] using fun h h' => hcolons ⟨h.symm, h'.symm⟩),
        intercalate_splitOn_colons (c :: acc) (d :: xs)]
      simp

theorem splitPath_intercalate {parts : List String} (hparts : parts ≠ [])
    (h : ∀ s ∈ parts, Source.NoColon s) : splitPath ("::".intercalate parts) = parts := by
  have hchars : ∀ part ∈ parts.map String.toList, ':' ∉ part := List.forall_mem_map.2 h
  have hsplit := splitOn_colons_intercalate (by simpa using hparts) hchars
  rw [splitPath, String.toList_intercalate]
  exact (congrArg _ hsplit).trans (by simp [Function.comp_def])

theorem splitPath_ne_nil (path : String) : splitPath path ≠ [] := by
  rw [splitPath, ne_eq, List.map_eq_nil_iff]
  exact splitOn_ne_nil_of_skip 0 [] _

theorem intercalate_splitPath (path : String) : "::".intercalate (splitPath path) = path := by
  rw [← String.toList_inj, String.toList_intercalate, splitPath, List.map_map]
  simpa [Function.comp_def] using intercalate_splitOn_colons [] path.toList

theorem intercalate_concat {sep : List Char} {parts : List (List Char)} (hparts : parts ≠ [])
    (part : List Char) :
    sep.intercalate (parts ++ [part]) = sep.intercalate parts ++ sep ++ part := by
  induction parts with
  | nil => exact absurd rfl hparts
  | cons first parts ih =>
    cases parts with
    | nil => simp [List.intercalate_cons_cons]
    | cons next parts =>
      rw [List.cons_append, List.cons_append, List.intercalate_cons_cons, ← List.cons_append,
        ih (List.cons_ne_nil _ _), List.intercalate_cons_cons]
      simp only [List.append_assoc]

theorem reverse_intercalate (sep : List Char) (parts : List (List Char)) :
    (sep.intercalate parts).reverse =
      sep.reverse.intercalate (parts.map List.reverse).reverse := by
  induction parts with
  | nil => rfl
  | cons part parts ih =>
    cases parts with
    | nil => simp
    | cons next parts =>
      have hrest : (List.map List.reverse (next :: parts)).reverse ≠ [] := by simp
      rw [List.intercalate_cons_cons, List.reverse_append, List.reverse_append, ih,
        List.map_cons (l := next :: parts), List.reverse_cons, intercalate_concat hrest,
        List.append_assoc]

end Text

/-! ## Joined names -/

theorem joinOnto_nil (base : String) : joinOnto base [] = base := rfl

theorem joinOnto_eq (base : String) (names : List String) :
    joinOnto base names = joinNames (base :: names) := by
  cases names with
  | nil => exact String.intercalate_singleton.symm
  | cons => rfl

theorem joinOnto_singleton (base name : String) : joinOnto base [name] = base ++ "::" ++ name := by
  rw [joinOnto_eq]
  exact String.intercalate_cons_cons.trans (by rw [String.intercalate_singleton])

theorem joinOnto_joinNames {names : List String} (hnames : names ≠ []) (rest : List String) :
    joinOnto (joinNames names) rest = joinNames (names ++ rest) := by
  cases rest with
  | nil => rw [joinOnto_nil, List.append_nil]
  | cons next rest =>
    have hall : joinNames (names ++ next :: rest) = joinNames names ++ "::" ++ _ :=
      String.intercalate_append_of_ne_nil hnames (List.cons_ne_nil _ _)
    rw [hall]
    exact String.intercalate_cons_of_ne_nil (List.cons_ne_nil _ _)

theorem joinOnto_append (base : String) (names rest : List String) :
    joinOnto (joinOnto base names) rest = joinOnto base (names ++ rest) := by
  rw [joinOnto_eq base, joinOnto_eq base, joinOnto_joinNames (List.cons_ne_nil _ _),
    List.cons_append]

/-- Names without colons can be told from their path. -/
theorem joinNames_inj {names names' : List String} (hne : names ≠ []) (hne' : names' ≠ [])
    (hnames : ∀ n ∈ names, Source.NoColon n) (hnames' : ∀ n ∈ names', Source.NoColon n)
    (h : joinNames names = joinNames names') : names = names' := by
  rw [← Text.splitPath_intercalate hne hnames, ← Text.splitPath_intercalate hne' hnames']
  exact congrArg Text.splitPath h

/-- What lies below a path of the crate lies in the crate. -/
theorem isInternal_below {path : String} (h : isInternal path = true) (name : String) :
    isInternal (path ++ "::" ++ name) = true := by
  rw [isInternal, Bool.or_eq_true] at h ⊢
  refine .inr (String.startsWith_string_iff.2 ?_)
  rcases h with h | h
  · cases beq_iff_eq.1 h
    exact ⟨name.toList, by simp [String.toList_append]⟩
  · obtain ⟨rest, hrest⟩ := String.startsWith_string_iff.1 h
    exact ⟨rest ++ "::".toList ++ name.toList, by simp [String.toList_append, ← hrest]⟩

/-- The last name of a path is split from the others. -/
theorem splitLast?_concat {names : List String} {name : String} (hne : names ≠ [])
    (hnames : ∀ n ∈ names, Source.NoColon n) (hname : Source.NoColon name) :
    splitLast? (joinNames (names ++ [name])) = some (joinNames names, name) := by
  have hchars : (joinNames (names ++ [name])).toList.reverse =
      [':', ':'].intercalate
        (name.toList.reverse :: (names.map (·.toList.reverse)).reverse) := by
    rw [joinNames, String.toList_intercalate, Text.reverse_intercalate]
    simp [Function.comp_def]
  have hparts : ∀ part ∈ name.toList.reverse :: (names.map (·.toList.reverse)).reverse,
      ':' ∉ part := by
    simpa [Source.NoColon] using ⟨hname, hnames⟩
  have hsplit := Text.splitOn_colons_intercalate (List.cons_ne_nil _ _) hparts
  obtain ⟨first, others, hothers⟩ :=
    List.exists_cons_of_ne_nil (l := (names.map (·.toList.reverse)).reverse) (by simpa using hne)
  rw [splitLast?, hchars, hsplit, hothers]
  dsimp only
  have hothers' : (List.map List.reverse (names.map (·.toList.reverse)).reverse).reverse =
      names.map String.toList := by
    simp [← List.map_reverse, Function.comp_def]
  have hparent : String.ofList ([':', ':'].intercalate (names.map String.toList)) =
      joinNames names :=
    String.toList_inj.1 (by rw [String.toList_ofList, joinNames, String.toList_intercalate]; rfl)
  rw [← hothers, Text.reverse_intercalate, hothers', List.reverse_reverse, String.ofList_toList,
    ← hparent]
  rfl

namespace Resolver

/-! ## Fronts -/

/-- The words that stand for a module at the front of a path. -/
def moduleWords : List String := ["crate", "self", "super"]

/-- What a name means at the front of a path. -/
def front (r : Resolver) (module name : String) : String :=
  match r.renamed? module name with
  | some target => target
  | none =>
    let child := module ++ "::" ++ name
    if r.modules.contains child then child else name

theorem front_of_renamed {r : Resolver} {module name target : String}
    (h : r.renamed? module name = some target) : r.front module name = target := by
  rw [front, h]

theorem absolute_cons (r : Resolver) (module : String) {first : String}
    (hfirst : first ∉ moduleWords) (rest : List String) :
    r.absolute module (first :: rest) = joinOnto (r.front module first) rest := by
  simp only [moduleWords, List.mem_cons, List.not_mem_nil, or_false, not_or] at hfirst
  obtain ⟨hcrate, hself, hsuper⟩ := hfirst
  unfold absolute front
  split
  · contradiction
  · rename_i heq
    exact absurd (List.cons.inj heq).1 hcrate
  · rename_i heq
    exact absurd (List.cons.inj heq).1 hself
  · rename_i heq
    exact absurd (List.cons.inj heq).1 hsuper
  · rename_i heq
    obtain ⟨rfl, rfl⟩ := List.cons.inj heq
    cases r.renamed? module first with
    | some target => rfl
    | none =>
      dsimp only
      split
      · rfl
      · exact (joinOnto_eq first rest).symm

/-- The `super`s at the front of a path are the same when names are added to it, unless it has no
other name and one more `super` is added. -/
theorem climb_append {rest : List String} :
    ∀ base names : List String, (rest.head? = some "super" → ∃ name ∈ names, name ≠ "super") →
      climb base (names ++ rest) = ((climb base names).1, (climb base names).2 ++ rest)
  | base, [], hrest => by
    have hstop : climb base rest = (base, rest) := by
      unfold climb
      split
      · obtain ⟨_, hname, -⟩ := hrest rfl
        exact absurd hname List.not_mem_nil
      · rfl
    rw [List.nil_append, hstop, climb, List.nil_append]
    exact fun _ h => by cases h
  | base, name :: names, hrest => by
    by_cases hname : name = "super"
    · subst hname
      rw [List.cons_append, climb, climb]
      refine climb_append _ names fun hhead => ?_
      obtain ⟨other, hother, hne⟩ := hrest hhead
      exact ⟨other, (List.mem_cons.1 hother).resolve_left hne, hne⟩
    · have hstop : ∀ names, climb base (name :: names) = (base, name :: names) := fun names => by
        rw [climb]
        exact fun _ h => hname (List.cons.inj h).1
      rw [List.cons_append, hstop, hstop, List.cons_append]

/-- What a path means is followed by the names that are added to it. -/
theorem absolute_append (r : Resolver) (module : String) {path rest : List String}
    (hpath : path ≠ []) (hrest : rest.head? = some "super" → ∃ name ∈ path, name ≠ "super") :
    r.absolute module (path ++ rest) = joinOnto (r.absolute module path) rest := by
  obtain ⟨first, names, rfl⟩ := List.exists_cons_of_ne_nil hpath
  by_cases hcrate : first = "crate"
  · subst hcrate
    exact (joinOnto_joinNames hpath rest).symm
  by_cases hself : first = "self"
  · subst hself
    exact (joinOnto_append module names rest).symm
  by_cases hsuper : first = "super"
  · subst hsuper
    rw [List.cons_append, absolute, absolute, ← List.cons_append, climb_append _ _ hrest]
    exact (joinOnto_append _ _ rest).symm
  have hfirst : first ∉ moduleWords := by simp [moduleWords, hcrate, hself, hsuper]
  rw [List.cons_append, absolute_cons r module hfirst, absolute_cons r module hfirst,
    joinOnto_append]

variable {r r' : Resolver} {module : String}

/-- A name means the same at the front if it is imported alike and declared alike as a module. -/
theorem front_congr {name : String} (hrenamed : r.renamed? module name = r'.renamed? module name)
    (hchild : module ++ "::" ++ name ∈ r.modules ↔ module ++ "::" ++ name ∈ r'.modules) :
    r.front module name = r'.front module name := by
  have hchild : r.modules.contains (module ++ "::" ++ name) =
      r'.modules.contains (module ++ "::" ++ name) := by
    rw [Bool.eq_iff_iff, List.contains_iff_mem, List.contains_iff_mem]
    exact hchild
  rw [front, front, hrenamed]
  dsimp only
  rw [hchild]

/-- Resolvers that agree on the front of a path agree on the path. -/
theorem absolute_congr {path : List String}
    (hfront : ∀ first ∈ path.head?, first ∉ moduleWords →
      r.front module first = r'.front module first) :
    r.absolute module path = r'.absolute module path := by
  cases path with
  | nil => rfl
  | cons first rest =>
    by_cases hfirst : first ∈ moduleWords
    · simp only [moduleWords, List.mem_cons, List.not_mem_nil, or_false] at hfirst
      rcases hfirst with rfl | rfl | rfl <;> rfl
    · rw [absolute_cons r module hfirst, absolute_cons r' module hfirst,
        hfront first rfl hfirst]

end Resolver

end WrapperGen
