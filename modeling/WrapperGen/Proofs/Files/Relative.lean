import Mathlib.Data.List.Sort
import WrapperGen.Files.SourceTree
import WrapperGen.Proofs.Files.Directories
import WrapperGen.Proofs.Output.Manifest
/-!
# Paths below a root

A file in a directory has the path of its names below that of the directory (`below`). What is left
of it without the root (`stripBase?_below`), how such paths compare (`compare_below`) and which of
them are sources (`isSource_below`) depends on the names only.
-/

namespace WrapperGen.Files

namespace FilePath

variable {p root : FilePath} {names names' : List String}

/-- The path that the names lead to from a root. -/
def below (root : FilePath) (names : List String) : FilePath :=
  names.foldl (fun q name => q.join ⟨name⟩) root

/-- The path that consists of the names. -/
def ofNames (names : List String) : FilePath := below ⟨""⟩ names

/-- The names lead to something in a directory. -/
structure LeadsBelow (names : List String) : Prop where
  nonempty : names ≠ []
  name : ∀ s ∈ names, IsName s.toList

instance (names : List String) : Decidable (LeadsBelow names) :=
  decidable_of_iff (names ≠ [] ∧ ∀ s ∈ names, IsName s.toList)
    ⟨fun h => ⟨h.1, h.2⟩, fun h => ⟨h.nonempty, h.name⟩⟩

theorem LeadsBelow.isPart (h : LeadsBelow names) : ∀ s ∈ names, IsPart s :=
  fun s hs => (h.name s hs).isPart

theorem components_below (h : ∀ s ∈ names, IsName s.toList) :
    (root.below names).components = root.components ++ names.map .normal := by
  induction names generalizing root with
  | nil => exact (List.append_nil _).symm
  | cons s names ih =>
    rw [below, List.foldl_cons, ← below, ih fun t ht => h t (.tail _ ht),
      components_join_name root (h s (.head _)), List.append_assoc]
    rfl

theorem components_ofNames (h : ∀ s ∈ names, IsName s.toList) :
    (ofNames names).components = names.map .normal := components_below h

theorem ofNames_inj (h : LeadsBelow names) (h' : LeadsBelow names') :
    ofNames names = ofNames names' ↔ names = names' :=
  ⟨foldl_join_inj h.isPart h'.isPart h.nonempty h'.nonempty, congrArg ofNames⟩

theorem ofNames_text (h : LeadsBelow names) :
    (ofNames names).text.toList = joinParts (names.map String.toList) :=
  foldl_join_empty h.isPart

/-! ## Without the root -/

theorem text_below (hroot : root.text ≠ "") (h : LeadsBelow names) :
    ∃ cs, (root.below names).text.toList = cs ++ '/' :: (ofNames names).text.toList ∧
      bodyOf cs = bodyOf root.text.toList := by
  rw [ofNames_text h]
  cases names with
  | nil => exact absurd rfl h.nonempty
  | cons s names =>
    have hs := h.name s (.head _)
    obtain ⟨cs, htext, -, hbody⟩ := join_text hroot hs.relative
    have hne : (root.join ⟨s⟩).text ≠ "" := fun hempty => by simp [hempty] at htext
    have hslash := ((endsIn_name s).join root).not_endsInSlash hs
    refine ⟨cs, ?_, hbody⟩
    rw [below, List.foldl_cons, foldl_join_text hne hslash fun t ht => h.isPart t (.tail _ ht),
      htext, List.map_cons, joinParts_cons, List.flatMap_map, List.append_assoc]
    rfl

theorem headComponent_split (p : FilePath) : headComponent p.split.1 = leading p.text.toList := by
  have hhead : ∀ c ∈ headComponent p.split.1, isLeading c := by
    unfold headComponent
    split <;> simp [isLeading]
  have hparts : ∀ c ∈ (p.split.2.filter (!isFiller ·)).map partComponent, ¬ isLeading c := by
    intro c hc
    obtain ⟨part, -, rfl⟩ := List.mem_map.1 hc
    unfold partComponent
    split <;> simp [isLeading]
  rw [← filter_components, components, List.filter_append, List.filter_eq_self.2 hhead,
    List.filter_eq_nil_iff.2 hparts, List.append_nil]

/-- The parts before a slash make the components before it. -/
theorem split_append {cs ds : List Char} (h : p.text.toList = cs ++ '/' :: ds) :
    ∃ init, p.split.2 = init ++ partsOf ds ∧
      (init.filter (!isFiller ·)).map partComponent = bodyOf cs := by
  have hc := p.split_cases
  generalize p.split = s at hc ⊢
  cases hc with
  | empty htext => simp [htext] at h
  | current htext =>
    rw [htext] at h
    cases cs <;> simp at h
  | root htext =>
    rw [htext] at h
    cases cs with
    | nil =>
      cases h
      exact ⟨[], rfl, rfl⟩
    | cons c cs =>
      cases h
      exact ⟨partsOf cs, partsOf_append cs ds, (bodyOf_slash cs).symm⟩
  | below htext =>
    rw [htext] at h
    cases cs with
    | nil => cases h
    | cons c cs =>
      obtain ⟨rfl, hrest⟩ := List.cons.inj h
      refine ⟨partsOf cs, by rw [hrest, ← partsOf_append]; rfl, ?_⟩
      cases cs with
      | nil => rfl
      | cons d cs =>
        obtain ⟨rfl, -⟩ := List.cons.inj hrest
        rw [bodyOf_dot_slash, ← bodyOf_slash]
        rfl
  | other => exact ⟨partsOf cs, by rw [h, partsOf_append], rfl⟩

theorem dropComponents_append (init parts : List (List Char)) :
    dropComponents (init.filter (!isFiller ·)).length (init ++ parts) =
      parts.dropWhile isFiller := by
  induction init with
  | nil => simp [dropComponents]
  | cons part init ih =>
    cases hfiller : isFiller part with
    | true =>
      rw [List.filter_cons_of_neg (by simp [hfiller]), ← ih]
      cases (init.filter (!isFiller ·)).length with
      | zero => simp [dropComponents, hfiller]
      | succ n => simp [dropComponents, hfiller]
    | false =>
      rw [List.filter_cons_of_pos (by simp [hfiller]), List.length_cons, ← ih]
      simp [dropComponents, hfiller]

theorem components_ne_nil (hp : p.text ≠ "") : p.components ≠ [] := by
  rw [components_eq]
  intro hnil
  obtain ⟨hleading, hbody⟩ := List.append_eq_nil_iff.1 hnil
  have hfillers : ∀ part ∈ partsOf p.text.toList, isFiller part := by
    simpa [bodyOf] using hbody
  have htext := joinParts_partsOf p.text.toList
  cases hparts : partsOf p.text.toList with
  | nil => exact Text.splitOn_ne_nil hparts
  | cons part parts =>
    have hpart : part = [] ∨ part = ['.'] := by
      simpa [isFiller] using hfillers part (hparts ▸ .head _)
    rw [hparts, joinParts_cons] at htext
    have hne : p.text.toList ≠ [] := fun h => hp (String.toList_eq_nil_iff.1 h)
    -- the text is empty, or it has a leading component
    rw [← htext] at hleading hne
    rcases hpart with rfl | rfl
    · cases parts with
      | nil => exact hne rfl
      | cons next parts => cases hleading
    · cases parts <;> cases hleading

theorem dropWhile_of_no_filler {parts : List (List Char)}
    (h : ∀ part ∈ parts, isFiller part = false) : parts.dropWhile isFiller = parts := by
  cases parts with
  | nil => rfl
  | cons part parts => exact List.dropWhile_cons_of_neg (by simp [h part (.head _)])

theorem trimEnd_of_no_filler {parts : List (List Char)}
    (h : ∀ part ∈ parts, isFiller part = false) : trimEnd parts = parts := by
  rw [trimEnd, dropWhile_of_no_filler fun part hpart => h part (List.mem_reverse.1 hpart),
    List.reverse_reverse]

/-- Without the root, the path of the names is left. -/
theorem stripBase?_below (hroot : root.text ≠ "") (h : LeadsBelow names) :
    stripBase? root (root.below names) = some (ofNames names) := by
  have hcomponents : (root.below names).components = _ := components_below h.name
  obtain ⟨cs, htext, hbody⟩ := text_below hroot h
  obtain ⟨init, hinit, hbefore⟩ := split_append htext
  have hleading : headComponent (root.below names).split.1 = leading root.text.toList := by
    rw [headComponent_split, ← filter_components, ← filter_components, hcomponents,
      List.filter_append, List.append_right_eq_self, List.filter_eq_nil_iff]
    simp [isLeading]
  have hlength : root.components.length - (headComponent (root.below names).split.1).length =
      (init.filter (!isFiller ·)).length := by
    rw [components_eq, hleading, List.length_append, Nat.add_sub_cancel_left, ← hbody, ← hbefore,
      List.length_map]
  have hparts : partsOf (ofNames names).text.toList = names.map String.toList := by
    rw [ofNames_text h]
    refine Text.splitOn_intercalate (by simpa using h.nonempty) fun part hpart => ?_
    obtain ⟨s, hs, rfl⟩ := List.mem_map.1 hpart
    exact (h.name s hs).noSlash
  have hnames : ∀ part ∈ names.map String.toList, isFiller part = false := fun part hpart => by
    obtain ⟨s, hs, rfl⟩ := List.mem_map.1 hpart
    exact (h.name s hs).notFiller
  have hne : root.components.length ≠ 0 := by simpa using components_ne_nil hroot
  simp only [stripBase?, hcomponents, List.take_left', beq_self_eq_true, if_true, if_neg hne]
  rw [hlength, hinit, dropComponents_append, hparts, dropWhile_of_no_filler hnames,
    trimEnd_of_no_filler hnames, ← ofNames_text h, String.ofList_toList]

/-! ## Names and order -/

theorem fileName?_below (h : LeadsBelow names) : (root.below names).fileName? = names.getLast? := by
  obtain ⟨init, last, rfl⟩ : ∃ init last, names = init ++ [last] :=
    (List.eq_nil_or_concat' names).resolve_left h.nonempty
  rw [fileName?, components_below h.name, List.map_append, ← List.append_assoc]
  simp [Component.name?]

theorem isSource_below (h : LeadsBelow names) :
    FileSystem.isSource (root.below names) = FileSystem.isSource (ofNames names) := by
  have hextension : (root.below names).extension? = (ofNames names).extension? := by
    rw [extension?, extension?, ofNames, fileName?_below h, fileName?_below h]
  rw [FileSystem.isSource, FileSystem.isSource, hextension]

theorem compareComponents_append (cs as bs : List Component) :
    compareComponents (cs ++ as) (cs ++ bs) = compareComponents as bs := by
  induction cs with
  | nil => rfl
  | cons c cs ih =>
    rw [List.cons_append, List.cons_append, compareComponents, Component.compare_eq.2 rfl]
    exact ih

theorem compare_below (h : LeadsBelow names) (h' : LeadsBelow names') :
    (root.below names).compare (root.below names') = (ofNames names).compare (ofNames names') := by
  rw [compare, compare, components_below h.name, components_below h'.name,
    compareComponents_append, components_ofNames h.name, components_ofNames h'.name]

theorem compare_ofNames_eq (h : LeadsBelow names) (h' : LeadsBelow names') :
    (ofNames names).compare (ofNames names') = .eq ↔ names = names' := by
  rw [compare_eq, same_iff, components_ofNames h.name, components_ofNames h'.name]
  exact List.map_inj_right fun _ _ => Component.normal.inj

/-- The order in which sources are listed. -/
def AtMost (p q : FilePath) : Prop := (p.compare q).isLE

instance : DecidableRel AtMost := fun p q => inferInstanceAs (Decidable ((p.compare q).isLE = true))

instance : IsTrans FilePath AtMost := ⟨fun _ _ _ => Std.TransCmp.isLE_trans⟩

instance : Std.Total AtMost where
  total p q := by
    have hswap : p.compare q = (q.compare p).swap := Std.OrientedCmp.eq_swap
    rw [AtMost, AtMost, hswap]
    cases q.compare p <;> decide

end FilePath

namespace FileSystem

open FilePath

theorem insertPath_eq (p : FilePath) (qs : List FilePath) :
    insertPath p qs = qs.orderedInsert AtMost p := by
  induction qs with
  | nil => rfl
  | cons q qs ih =>
    have hle : AtMost p q ↔ ¬ p.compare q == .gt := by
      rw [AtMost]
      cases p.compare q <;> decide
    rw [insertPath, List.orderedInsert_cons, ih, if_congr hle rfl rfl, ite_not]

theorem sortPaths_eq (ps : List FilePath) : sortPaths ps = ps.insertionSort AtMost := by
  have hinsert : insertPath = List.orderedInsert AtMost := funext fun p => funext (insertPath_eq p)
  rw [sortPaths, hinsert]
  rfl

end FileSystem

end WrapperGen.Files
