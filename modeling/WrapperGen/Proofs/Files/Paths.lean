import Mathlib.Data.List.Induction
import WrapperGen.Files.FileSystem
/-!
# Components of joined paths

* `components_eq`: the components of a path by its text.
* `components_join`: those of a path that a relative one was joined to.
* `same_join_join_name`: paths that end in names are the same when the names and the directories
  are.
-/

namespace WrapperGen

namespace Text

variable {a c : Char} {acc xs : List Char}

theorem splitOn_cons_self : splitOn [a] 0 acc (a :: xs) = acc.reverse :: splitOn [a] 0 [] xs := by
  simp [splitOn, List.isPrefixOf]

theorem splitOn_cons_other (h : c ≠ a) :
    splitOn [a] 0 acc (c :: xs) = splitOn [a] 0 (c :: acc) xs := by
  have hp : [a].isPrefixOf (c :: xs) = false := by
    simp [List.isPrefixOf, Ne.symm h]
  simp [splitOn, hp]

theorem splitOn_append (a : Char) (acc xs ys : List Char) :
    splitOn [a] 0 acc (xs ++ a :: ys) = splitOn [a] 0 acc xs ++ splitOn [a] 0 [] ys := by
  induction xs generalizing acc with
  | nil => rw [List.nil_append, splitOn_cons_self, splitOn]; rfl
  | cons c xs ih =>
    rw [List.cons_append]
    by_cases hc : c = a
    · rw [hc, splitOn_cons_self, splitOn_cons_self, ih, List.cons_append]
    · rw [splitOn_cons_other hc, splitOn_cons_other hc, ih]

theorem splitOn_of_not_mem (h : a ∉ xs) : splitOn [a] 0 acc xs = [acc.reverse ++ xs] := by
  induction xs generalizing acc with
  | nil => simp [splitOn]
  | cons c xs ih =>
    rw [List.mem_cons, not_or] at h
    obtain ⟨hc, hxs⟩ := h
    rw [splitOn_cons_other (Ne.symm hc), ih hxs]
    simp

/-- The last part of a text that does not end with the separator is not empty. -/
theorem splitOn_getLast (acc : List Char) (hnil : acc ≠ [] ∨ xs ≠ [])
    (hlast : xs.getLast? ≠ some a) :
    ∃ parts last, splitOn [a] 0 acc xs = parts ++ [last] ∧ last ≠ [] := by
  induction xs generalizing acc with
  | nil => exact ⟨[], acc.reverse, rfl, by simpa using hnil⟩
  | cons c xs ih =>
    have htail : xs.getLast? ≠ some a := fun h => by
      rw [List.getLast?_cons, h] at hlast
      exact hlast rfl
    by_cases hc : c = a
    · have hxs : xs ≠ [] := by
        rintro rfl
        exact hlast (by rw [hc]; rfl)
      obtain ⟨parts, last, hparts, hne⟩ := ih [] (.inr hxs) htail
      exact ⟨acc.reverse :: parts, last, by rw [hc, splitOn_cons_self, hparts]; rfl, hne⟩
    · obtain ⟨parts, last, hparts, hne⟩ := ih (c :: acc) (.inl (List.cons_ne_nil _ _)) htail
      exact ⟨parts, last, by rw [splitOn_cons_other hc, hparts], hne⟩

end Text

namespace Files

namespace FilePath

/-! ## Parts -/

/-- The parts of a text between its slashes. -/
def partsOf (cs : List Char) : List (List Char) := Text.splitOn ['/'] 0 [] cs

/-- The components of a path's body. -/
def bodyOf (cs : List Char) : List Component :=
  ((partsOf cs).filter (!isFiller ·)).map partComponent

theorem partsOf_slash (cs : List Char) : partsOf ('/' :: cs) = [] :: partsOf cs :=
  Text.splitOn_cons_self

theorem partsOf_append (cs ds : List Char) : partsOf (cs ++ '/' :: ds) = partsOf cs ++ partsOf ds :=
  Text.splitOn_append '/' [] cs ds

@[simp] theorem bodyOf_nil : bodyOf [] = [] := rfl

@[simp] theorem bodyOf_slash (cs : List Char) : bodyOf ('/' :: cs) = bodyOf cs := by
  simp [bodyOf, partsOf_slash, isFiller]

@[simp] theorem bodyOf_append (cs ds : List Char) :
    bodyOf (cs ++ '/' :: ds) = bodyOf cs ++ bodyOf ds := by
  simp [bodyOf, partsOf_append]

theorem bodyOf_dot_slash (cs : List Char) : bodyOf ('.' :: '/' :: cs) = bodyOf cs := by
  rw [show '.' :: '/' :: cs = ['.'] ++ '/' :: cs from rfl, bodyOf_append]
  rfl

/-- A text without slashes that is a component. -/
structure IsName (cs : List Char) : Prop where
  noSlash : '/' ∉ cs
  notFiller : isFiller cs = false
  notParent : cs ≠ ['.', '.']

theorem IsName.bodyOf {cs : List Char} (h : IsName cs) :
    bodyOf cs = [.normal (String.ofList cs)] := by
  simp [FilePath.bodyOf, partsOf, Text.splitOn_of_not_mem h.noSlash, h.notFiller, partComponent,
    h.notParent]

/-! ## Components -/

/-- The component that a path begins with because of its place. -/
def leading : List Char → List Component
  | '/' :: _ => [.root]
  | ['.'] => [.current]
  | '.' :: '/' :: _ => [.current]
  | _ => []

theorem components_eq (p : FilePath) :
    p.components = leading p.text.toList ++ bodyOf p.text.toList := by
  unfold components split
  split
  · rename_i hsplit
    split at hsplit
    · rename_i htext
      cases hsplit
      simp [htext, headComponent, leading]
    · rename_i htext
      cases hsplit
      rw [htext, bodyOf_slash]
      rfl
    · rename_i htext
      cases hsplit
      rw [htext]
      rfl
    · rename_i htext
      cases hsplit
      rw [htext, bodyOf_dot_slash]
      simp only [headComponent, leading]
      rw [← bodyOf_slash]
      rfl
    · rename_i h₁ h₂ h₃ h₄
      cases hsplit
      rw [show leading p.text.toList = [] by unfold leading; split <;> simp_all]
      rfl

theorem leading_append {cs : List Char} (ds : List Char) (h : cs ≠ []) :
    leading (cs ++ '/' :: ds) = leading cs := by
  cases cs with
  | nil => exact absurd rfl h
  | cons c cs =>
    by_cases hslash : c = '/'
    · rw [hslash]; rfl
    by_cases hdot : c = '.'
    · rw [hdot]
      cases cs with
      | nil => rfl
      | cons d cs =>
        by_cases hd : d = '/'
        · rw [hd]; rfl
        · simp [leading, hd]
    · simp [leading, hslash, hdot]

theorem leading_relative {cs : List Char} (h : IsName cs) : leading cs = [] := by
  unfold leading
  split
  · exact absurd (List.mem_cons_self) h.noSlash
  · exact absurd h.notFiller (by decide)
  · exact absurd (List.mem_cons_of_mem _ List.mem_cons_self) h.noSlash
  · rfl

/-! ## Joining -/

theorem isAbsolute_iff {p : FilePath} : p.isAbsolute ↔ leading p.text.toList = [.root] := by
  unfold isAbsolute leading
  split
  · simp_all
  · simp_all
  · simp_all
  · rename_i hroot _ _
    cases htext : p.text.toList with
    | nil => simp
    | cons c cs =>
      have hc : c ≠ '/' := fun hc => hroot cs (by rw [htext, hc])
      simp [hc]

theorem join_absolute {p q : FilePath} (h : q.isAbsolute) : p.join q = q := by
  simp [join, h]

@[simp] theorem empty_join (q : FilePath) : (⟨""⟩ : FilePath).join q = q := by
  unfold join
  split <;> simp

/-- The text of a relative path comes after a slash, which the path before it may end with. -/
theorem join_text {p q : FilePath} (hp : p.text ≠ "") (hq : ¬ q.isAbsolute) :
    ∃ cs, (p.join q).text.toList = cs ++ '/' :: q.text.toList ∧
      leading (cs ++ '/' :: q.text.toList) = leading p.text.toList ∧
      bodyOf cs = bodyOf p.text.toList := by
  have hne : p.text.toList ≠ [] := fun h => hp (String.toList_eq_nil_iff.1 h)
  by_cases hslash : p.endsInSlash
  · obtain ⟨cs, hcs⟩ : ∃ cs, p.text.toList = cs ++ ['/'] :=
      List.getLast?_eq_some_iff.1 (beq_iff_eq.1 hslash)
    refine ⟨cs, by simp [join, hq, hslash, hcs], ?_, ?_⟩
    · cases cs with
      | nil => rw [hcs]; rfl
      | cons c cs =>
        rw [hcs, leading_append _ (List.cons_ne_nil c cs), leading_append _ (List.cons_ne_nil c cs)]
    · rw [hcs, bodyOf_append, bodyOf_nil, List.append_nil]
  · exact ⟨p.text.toList, by simp [join, hq, hslash, hp], leading_append _ hne, rfl⟩

theorem bodyOf_join (p : FilePath) {q : FilePath} (hq : ¬ q.isAbsolute) :
    bodyOf (p.join q).text.toList = bodyOf p.text.toList ++ bodyOf q.text.toList := by
  by_cases hp : p.text = ""
  · obtain rfl : p = ⟨""⟩ := by cases p; exact congrArg _ hp
    rw [empty_join]
    rfl
  · obtain ⟨cs, htext, -, hbody⟩ := join_text hp hq
    rw [htext, bodyOf_append, hbody]

theorem leading_join {p q : FilePath} (hp : p.text ≠ "") (hq : ¬ q.isAbsolute) :
    leading (p.join q).text.toList = leading p.text.toList := by
  obtain ⟨cs, htext, hleading, -⟩ := join_text hp hq
  rw [htext, hleading]

theorem components_join {p q : FilePath} (hp : p.text ≠ "") (hq : ¬ q.isAbsolute) :
    (p.join q).components = p.components ++ bodyOf q.text.toList := by
  rw [components_eq, components_eq p, leading_join hp hq, bodyOf_join p hq, List.append_assoc]

theorem IsName.relative {s : String} (h : IsName s.toList) : ¬ (⟨s⟩ : FilePath).isAbsolute := by
  rw [isAbsolute_iff, leading_relative h]
  exact nofun

theorem components_join_name (p : FilePath) {s : String} (h : IsName s.toList) :
    (p.join ⟨s⟩).components = p.components ++ [.normal s] := by
  by_cases hp : p.text = ""
  · obtain rfl : p = ⟨""⟩ := by cases p; exact congrArg _ hp
    rw [empty_join, components_eq, leading_relative h, h.bodyOf, String.ofList_toList]
    rfl
  · rw [components_join hp h.relative, h.bodyOf, String.ofList_toList]

theorem isAbsolute_join_name {p : FilePath} {s : String} (h : IsName s.toList) :
    (p.join ⟨s⟩).isAbsolute ↔ p.isAbsolute := by
  by_cases hp : p.text = ""
  · obtain rfl : p = ⟨""⟩ := by cases p; exact congrArg _ hp
    rw [empty_join]
    exact ⟨fun hs => absurd hs h.relative, fun hs => absurd hs (by decide)⟩
  · rw [isAbsolute_iff, isAbsolute_iff, leading_join hp h.relative]

/-- A name ends a path also below another path. -/
theorem components_join_join_name (p q : FilePath) {s : String} (h : IsName s.toList) :
    (p.join (q.join ⟨s⟩)).components = (p.join q).components ++ [.normal s] := by
  by_cases hq : q.isAbsolute
  · rw [join_absolute hq, join_absolute ((isAbsolute_join_name h).2 hq), components_join_name q h]
  by_cases hp : p.text = ""
  · obtain rfl : p = ⟨""⟩ := by cases p; exact congrArg _ hp
    rw [empty_join, empty_join, components_join_name q h]
  · have hqs : ¬ (q.join ⟨s⟩).isAbsolute := fun hqs => hq ((isAbsolute_join_name h).1 hqs)
    rw [components_join hp hqs, components_join hp hq, bodyOf_join q h.relative, h.bodyOf,
      String.ofList_toList, List.append_assoc]

theorem same_iff {p q : FilePath} : p.same q ↔ p.components = q.components := by
  simp [same]

theorem same_rfl {p : FilePath} : p.same p := same_iff.2 rfl

theorem same_symm {p q : FilePath} (h : p.same q) : q.same p := same_iff.2 (same_iff.1 h).symm

theorem components_join_empty (p : FilePath) : (p.join ⟨""⟩).components = p.components := by
  by_cases hp : p.text = ""
  · obtain rfl : p = ⟨""⟩ := by cases p; exact congrArg _ hp
    rw [empty_join]
  · rw [components_join hp (by decide)]
    exact List.append_nil _

/-- Names that are joined one after the other add one component each. -/
theorem components_join_names (p : FilePath) {names : List String}
    (h : ∀ s ∈ names, IsName s.toList) :
    (p.join (names.foldl (fun q s => q.join ⟨s⟩) ⟨""⟩)).components =
      p.components ++ names.map .normal := by
  induction names using List.reverseRecOn with
  | nil => rw [List.foldl_nil, components_join_empty, List.map_nil, List.append_nil]
  | append_singleton names s ih =>
    have hnames : ∀ t ∈ names, IsName t.toList := fun t ht => h t (List.mem_append_left _ ht)
    rw [List.foldl_append, List.foldl_cons, List.foldl_nil,
      components_join_join_name _ _ (h s (List.mem_append_right _ (.head _))), ih hnames,
      List.map_append, List.append_assoc]
    rfl

/-- Whether only the place of a component makes it one. -/
def isLeading : Component → Bool
  | .root | .current => true
  | .parent | .normal _ => false

theorem isLeading_of_leading (cs : List Char) : ∀ c ∈ leading cs, isLeading c := by
  unfold leading
  split <;> simp [isLeading]

theorem not_isLeading_of_bodyOf (cs : List Char) : ∀ c ∈ bodyOf cs, ¬ isLeading c := by
  intro c hc
  obtain ⟨part, -, rfl⟩ := List.mem_map.1 hc
  unfold partComponent
  split <;> simp [isLeading]

theorem filter_components (p : FilePath) :
    p.components.filter isLeading = leading p.text.toList := by
  rw [components_eq, List.filter_append, List.filter_eq_self.2 (isLeading_of_leading _),
    List.filter_eq_nil_iff.2 (not_isLeading_of_bodyOf _), List.append_nil]

/-- The same components come from the same beginning and the same body. -/
theorem eq_of_same {p q : FilePath} (h : p.same q) :
    leading p.text.toList = leading q.text.toList ∧
      bodyOf p.text.toList = bodyOf q.text.toList := by
  have hc := same_iff.1 h
  have hleading : leading p.text.toList = leading q.text.toList := by
    rw [← filter_components, ← filter_components, hc]
  refine ⟨hleading, ?_⟩
  rw [components_eq, components_eq, hleading] at hc
  exact List.append_cancel_left hc

theorem same_join {p q : FilePath} (r : FilePath) (h : p.same q) :
    (r.join p).same (r.join q) := by
  obtain ⟨hleading, hbody⟩ := eq_of_same h
  by_cases hp : p.isAbsolute
  · have hq : q.isAbsolute := isAbsolute_iff.2 (hleading ▸ isAbsolute_iff.1 hp)
    rwa [join_absolute hp, join_absolute hq]
  · have hq : ¬ q.isAbsolute := fun hq => hp (isAbsolute_iff.2 (hleading ▸ isAbsolute_iff.1 hq))
    by_cases hr : r.text = ""
    · obtain rfl : r = ⟨""⟩ := by cases r; exact congrArg _ hr
      rwa [empty_join, empty_join]
    · rw [same_iff, components_join hr hp, components_join hr hq, hbody]

/-- Paths that end in names are the same when the names and the directories are. -/
theorem same_join_join_name {p q p' q' : FilePath} {s t : String} (hs : IsName s.toList)
    (ht : IsName t.toList) :
    (p.join (q.join ⟨s⟩)).same (p'.join (q'.join ⟨t⟩)) ↔ (p.join q).same (p'.join q') ∧ s = t := by
  rw [same_iff, same_iff, components_join_join_name p q hs, components_join_join_name p' q' ht]
  constructor
  · intro h
    obtain ⟨hdirectories, hnames⟩ := List.append_inj' h rfl
    exact ⟨hdirectories, by simpa using hnames⟩
  · rintro ⟨hdirectories, rfl⟩
    rw [hdirectories]

end FilePath

end Files

end WrapperGen
