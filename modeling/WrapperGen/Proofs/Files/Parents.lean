import WrapperGen.Proofs.Files.Writes
/-!
# The directory of a path

* `steps`: the parts of a path that lead somewhere. Those of the directory of a path are all but
  the last (`parent?_some`).
* `newPlace_eq_steps`: a path that does not end in fillers is followed step by step.
-/

namespace WrapperGen

namespace Text

variable {a : Char} {acc xs : List Char}

theorem not_mem_of_mem_splitOn {part : List Char} (hacc : a ∉ acc)
    (h : part ∈ splitOn [a] 0 acc xs) : a ∉ part := by
  induction xs generalizing acc with
  | nil =>
    obtain rfl := List.mem_singleton.1 h
    simpa using hacc
  | cons c xs ih =>
    by_cases hc : c = a
    · rw [hc, splitOn_cons_self] at h
      rcases List.mem_cons.1 h with rfl | h
      · simpa using hacc
      · exact ih List.not_mem_nil h
    · rw [splitOn_cons_other hc] at h
      exact ih (by simp [hacc, Ne.symm hc]) h

theorem splitOn_ne_nil : splitOn [a] 0 acc xs ≠ [] := by
  induction xs generalizing acc with
  | nil => exact List.cons_ne_nil _ _
  | cons c xs ih =>
    by_cases hc : c = a
    · rw [hc, splitOn_cons_self]
      exact List.cons_ne_nil _ _
    · rw [splitOn_cons_other hc]
      exact ih

theorem intercalate_splitOn : [a].intercalate (splitOn [a] 0 acc xs) = acc.reverse ++ xs := by
  induction xs generalizing acc with
  | nil => simp [splitOn]
  | cons c xs ih =>
    by_cases hc : c = a
    · rw [hc, splitOn_cons_self]
      have hrest := @ih []
      obtain ⟨part, parts, hparts⟩ : ∃ part parts, splitOn [a] 0 [] xs = part :: parts :=
        List.exists_cons_of_ne_nil splitOn_ne_nil
      rw [hparts] at hrest ⊢
      rw [List.intercalate_cons_cons, hrest]
      simp
    · rw [splitOn_cons_other hc, ih]
      simp

theorem splitOn_intercalate {parts : List (List Char)} (hparts : parts ≠ [])
    (h : ∀ part ∈ parts, a ∉ part) : splitOn [a] 0 [] ([a].intercalate parts) = parts := by
  induction parts with
  | nil => exact absurd rfl hparts
  | cons part parts ih =>
    have hpart := h part (.head _)
    cases parts with
    | nil => rw [List.intercalate_singleton, splitOn_of_not_mem hpart]; rfl
    | cons next parts =>
      rw [List.intercalate_cons_cons, List.append_assoc, List.singleton_append, splitOn_append,
        splitOn_of_not_mem hpart, ih (List.cons_ne_nil _ _) fun part h' => h part (.tail _ h')]
      rfl

theorem intercalate_prefix (sep : List Char) (parts rest : List (List Char)) :
    sep.intercalate parts <+: sep.intercalate (parts ++ rest) := by
  induction parts with
  | nil => exact List.nil_prefix
  | cons part parts ih =>
    cases parts with
    | nil =>
      rw [List.intercalate_singleton]
      cases rest with
      | nil => simp
      | cons next rest =>
        rw [List.singleton_append, List.intercalate_cons_cons, List.append_assoc]
        exact List.prefix_append _ _
    | cons next parts =>
      rw [List.cons_append, List.cons_append, List.intercalate_cons_cons,
        List.intercalate_cons_cons, List.prefix_append_right_inj]
      exact ih

end Text

namespace Files

namespace FilePath

variable {p q : FilePath}

/-- The parts of a path that lead somewhere. -/
def steps (p : FilePath) : List String :=
  ((partsOf p.text.toList).filter (!isFiller ·)).map String.ofList

/-- A path without fillers at its end. -/
def IsTrimmed (p : FilePath) : Prop :=
  p.steps ≠ [] → ∀ last ∈ (partsOf p.text.toList).getLast?, isFiller last = false

/-! ## Splitting -/

/-- How a path is split into its head and its parts. -/
inductive Splitting (p : FilePath) : List Char × List (List Char) → Prop
  | empty (text : p.text.toList = []) : Splitting p ([], [])
  | root {r : List Char} (text : p.text.toList = '/' :: r) : Splitting p (['/'], partsOf r)
  | current (text : p.text.toList = ['.']) : Splitting p (['.'], [])
  | below {r : List Char} (text : p.text.toList = '.' :: '/' :: r) :
      Splitting p (['.'], partsOf ('/' :: r))
  | other (nonempty : p.text.toList ≠ []) (relative : p.text.toList.head? ≠ some '/') :
      Splitting p ([], partsOf p.text.toList)

theorem split_cases (p : FilePath) : Splitting p p.split := by
  unfold split
  split
  · rename_i htext
    exact .empty htext
  · rename_i htext
    exact .root htext
  · rename_i htext
    exact .current htext
  · rename_i htext
    exact .below htext
  · rename_i hempty hroot _ _
    refine .other hempty fun hhead => ?_
    obtain ⟨r, hr⟩ := List.head?_eq_some_iff.1 hhead
    exact hroot r hr

theorem joinParts_partsOf (cs : List Char) : joinParts (partsOf cs) = cs :=
  Text.intercalate_splitOn

theorem split_text (p : FilePath) : p.text.toList = p.split.1 ++ joinParts p.split.2 := by
  have hc := p.split_cases
  generalize p.split = s at hc ⊢
  cases hc with
  | empty htext | current htext => rw [htext]; rfl
  | root htext | below htext => rw [joinParts_partsOf, htext]; rfl
  | other => rw [joinParts_partsOf, List.nil_append]

theorem split_noSlash {part : List Char} (h : part ∈ p.split.2) : '/' ∉ part := by
  have hc := p.split_cases
  generalize p.split = s at hc h
  cases hc with
  | empty | current => cases h
  | root | below | other => exact Text.not_mem_of_mem_splitOn List.not_mem_nil h

/-- The first parts of a path, behind its head, lead where they lead alone. -/
theorem partsOf_head_append {ps : List (List Char)} (hps : ps <+: p.split.2) :
    (partsOf (p.split.1 ++ joinParts ps)).filter (!isFiller ·) = ps.filter (!isFiller ·) ∧
      (ps.filter (!isFiller ·) ≠ [] →
        (partsOf (p.split.1 ++ joinParts ps)).getLast? = ps.getLast?) := by
  have hslash : ∀ part ∈ ps, '/' ∉ part := fun part h => split_noSlash (hps.subset h)
  have hc := p.split_cases
  generalize p.split = s at hc hps ⊢
  by_cases hnil : ps = []
  · subst hnil
    cases hc <;> simp [joinParts, partsOf, Text.splitOn, isFiller]
  have hparts : partsOf (joinParts ps) = ps := Text.splitOn_intercalate hnil hslash
  cases hc with
  | empty | current => exact absurd (List.prefix_nil.1 hps) hnil
  | root =>
    rw [List.singleton_append, partsOf_slash, hparts]
    refine ⟨by simp [isFiller], fun _ => ?_⟩
    rw [List.getLast?_cons_of_ne_nil hnil]
  | other => exact ⟨by rw [List.nil_append, hparts], fun _ => by rw [List.nil_append, hparts]⟩
  | below =>
    rw [partsOf_slash] at hps
    obtain ⟨part, rest, rfl⟩ := List.exists_cons_of_ne_nil hnil
    obtain ⟨rfl, -⟩ := List.cons_prefix_cons.1 hps
    cases rest with
    | nil => simp [joinParts, partsOf, Text.splitOn, isFiller]
    | cons next rest =>
      have hrest : partsOf (joinParts (next :: rest)) = next :: rest :=
        Text.splitOn_intercalate (List.cons_ne_nil _ _) fun part h => hslash part (.tail _ h)
      have htext : ['.'] ++ joinParts ([] :: next :: rest) =
          ['.'] ++ '/' :: joinParts (next :: rest) := by
        rw [joinParts, List.intercalate_cons_cons]
        rfl
      rw [htext, partsOf_append, hrest]
      refine ⟨by simp [partsOf, Text.splitOn, isFiller], fun _ => ?_⟩
      rw [show partsOf ['.'] = [['.']] from rfl, List.singleton_append, List.getLast?_cons_cons,
        List.getLast?_cons_cons]

theorem steps_split (p : FilePath) :
    p.steps = (p.split.2.filter (!isFiller ·)).map String.ofList := by
  rw [steps, split_text, (partsOf_head_append (List.prefix_refl _)).1]

/-! ## The directory of a path -/

theorem trimEnd_append (parts : List (List Char)) :
    ∃ rest, parts = trimEnd parts ++ rest ∧ ∀ part ∈ rest, isFiller part := by
  refine ⟨(parts.reverse.takeWhile isFiller).reverse, ?_, fun part h => ?_⟩
  · rw [trimEnd, ← List.reverse_append, List.takeWhile_append_dropWhile, List.reverse_reverse]
  · exact List.all_eq_true.1 List.all_takeWhile part (List.mem_reverse.1 h)

theorem prefix_of_trimEnd (parts : List (List Char)) : trimEnd parts <+: parts := by
  obtain ⟨rest, hparts, -⟩ := trimEnd_append parts
  exact ⟨rest, hparts.symm⟩

theorem filter_trimEnd (parts : List (List Char)) :
    (trimEnd parts).filter (!isFiller ·) = parts.filter (!isFiller ·) := by
  obtain ⟨rest, hparts, hrest⟩ := trimEnd_append parts
  have hnone : rest.filter (!isFiller ·) = [] := by simpa using hrest
  conv_rhs => rw [hparts, List.filter_append, hnone, List.append_nil]

theorem trimEnd_getLast {parts : List (List Char)} {last : List Char}
    (h : (trimEnd parts).getLast? = some last) : isFiller last = false := by
  rw [trimEnd, List.getLast?_reverse] at h
  have hhead := List.head?_dropWhile_not isFiller parts.reverse
  rw [h] at hhead
  simpa using hhead

/-- What the directory of a path has in common with it. -/
structure IsParent (q p : FilePath) (last : String) : Prop where
  steps : p.steps = q.steps ++ [last]
  text : q.text.toList <+: p.text.toList
  isAbsolute : q.isAbsolute = p.isAbsolute
  trimmed : q.IsTrimmed

theorem parent?_none (h : p.parent? = none) : p.steps = [] := by
  unfold parent? at h
  dsimp only at h
  split at h
  · rename_i htrim
    rw [steps_split, ← filter_trimEnd, htrim]
    rfl
  · cases h

/-- The directory of a path has all its steps but the last. -/
theorem parent?_some (h : p.parent? = some q) (hp : p.steps ≠ []) :
    ∃ last, IsParent q p last := by
  unfold parent? at h
  dsimp only at h
  split at h
  · rename_i htrim
    refine absurd ?_ hp
    rw [steps_split, ← filter_trimEnd, htrim]
    rfl
  · rename_i hne
    obtain ⟨init, last, hinit⟩ := (List.eq_nil_or_concat (trimEnd p.split.2)).resolve_left hne
    rw [List.concat_eq_append] at hinit
    rw [hinit, List.dropLast_concat, Option.some.injEq] at h
    have hps : trimEnd init <+: p.split.2 := by
      refine (prefix_of_trimEnd init).trans (List.IsPrefix.trans ?_ (prefix_of_trimEnd p.split.2))
      rw [hinit]
      exact List.prefix_append _ _
    have htext : q.text.toList = p.split.1 ++ joinParts (trimEnd init) := by
      rw [← h, String.toList_ofList]
    obtain ⟨hsteps, hlast⟩ := partsOf_head_append hps
    rw [← htext] at hsteps hlast
    have hprefix : q.text.toList <+: p.text.toList := by
      obtain ⟨rest, hrest⟩ := hps
      rw [htext, p.split_text, List.prefix_append_right_inj, ← hrest]
      exact Text.intercalate_prefix _ _ _
    refine ⟨String.ofList last, ?_, hprefix, ?_, fun hq last' hlast' => ?_⟩
    · have hfiller : isFiller last = false := trimEnd_getLast (by rw [hinit]; simp)
      rw [steps_split, ← filter_trimEnd, hinit, List.filter_append, ← filter_trimEnd init,
        List.map_append, FilePath.steps, hsteps]
      simp [hfiller]
    · unfold isAbsolute
      cases hq : q.text.toList with
      | nil =>
        have hhead : p.split.1 = [] := by
          rw [htext] at hq
          exact (List.append_eq_nil_iff.1 hq).1
        have hc := p.split_cases
        generalize p.split = s at hc hhead
        cases hc with
        | empty htext => rw [htext]
        | other _ hrelative => simpa using hrelative
        | root | current | below => cases hhead
      | cons c cs =>
        obtain ⟨rest, hrest⟩ := hprefix
        rw [← hrest, hq]
        rfl
    · rw [FilePath.steps, hsteps] at hq
      rw [hlast fun hnil => hq (by rw [hnil]; rfl)] at hlast'
      exact trimEnd_getLast hlast'

/-! ## Paths that end in a name -/

/-- A path whose last part is a name. -/
def EndsIn (p : FilePath) (name : String) : Prop :=
  '/' :: name.toList <:+ '/' :: p.text.toList

theorem endsIn_name (name : String) : EndsIn ⟨name⟩ name := List.suffix_refl _

theorem EndsIn.join {name : String} (h : EndsIn q name) (p : FilePath) :
    EndsIn (p.join q) name := by
  by_cases hq : q.isAbsolute
  · rwa [join_absolute hq]
  · by_cases hp : p.text = ""
    · obtain rfl : p = ⟨""⟩ := by cases p; exact congrArg _ hp
      rwa [empty_join]
    · obtain ⟨cs, htext, -, -⟩ := join_text hp hq
      rw [EndsIn, htext]
      exact h.trans (List.suffix_append ('/' :: cs) _)

theorem EndsIn.isTrimmed {name : String} (h : EndsIn p name) (hname : IsName name.toList) :
    p.IsTrimmed := by
  obtain ⟨cs, hcs⟩ := h
  rintro - last hlast
  have hparts : [] :: partsOf p.text.toList = partsOf cs ++ [name.toList] := by
    rw [← partsOf_slash, ← hcs, partsOf_append]
    exact congrArg _ (Text.splitOn_of_not_mem hname.noSlash)
  have hlast' : ([] :: partsOf p.text.toList).getLast? = some last := by
    obtain ⟨part, parts, hp⟩ : ∃ part parts, partsOf p.text.toList = part :: parts :=
      List.exists_cons_of_ne_nil Text.splitOn_ne_nil
    rw [hp] at hlast ⊢
    rwa [List.getLast?_cons_cons]
  rw [hparts, List.getLast?_concat] at hlast'
  obtain rfl := Option.some.inj hlast'
  exact hname.notFiller

theorem EndsIn.not_endsInSlash {name : String} (h : EndsIn p name) (hname : IsName name.toList) :
    ¬ p.endsInSlash := by
  obtain ⟨cs, hcs⟩ := h
  intro hslash
  have hnil : name.toList ≠ [] := fun hnil => absurd hname.notFiller (by rw [hnil]; decide)
  have hlast : name.toList.getLast? = some '/' := by
    have htext : ('/' :: p.text.toList).getLast? = some '/' := by
      rw [List.getLast?_cons, beq_iff_eq.1 hslash]
      rfl
    rw [← hcs, List.getLast?_append, List.getLast?_cons_of_ne_nil hnil] at htext
    rw [List.getLast?_eq_some_getLast hnil] at htext ⊢
    exact htext
  exact hname.noSlash (List.mem_of_getLast? hlast)

theorem steps_ne_nil {name : String} (h : .normal name ∈ p.components) : p.steps ≠ [] := by
  rw [components_eq, List.mem_append] at h
  rcases h with h | h
  · exact absurd (isLeading_of_leading _ _ h) (by simp [isLeading])
  · obtain ⟨part, hpart, -⟩ := List.mem_map.1 h
    exact List.ne_nil_of_mem (List.mem_map_of_mem hpart)

/-! ## Steps -/

theorem mem_steps_parent : ".." ∈ p.steps ↔ .parent ∈ p.components := by
  rw [components_eq, List.mem_append]
  constructor
  · intro h
    obtain ⟨part, hpart, hparent⟩ := List.mem_map.1 h
    refine .inr (List.mem_map.2 ⟨part, hpart, ?_⟩)
    rw [show part = "..".toList by rw [← hparent, String.toList_ofList]]
    rfl
  · rintro (h | h)
    · exact absurd (isLeading_of_leading _ _ h) (by decide)
    · obtain ⟨part, hpart, hparent⟩ := List.mem_map.1 h
      refine List.mem_map.2 ⟨part, hpart, ?_⟩
      unfold partComponent at hparent
      split at hparent
      · rename_i hdots
        rw [beq_iff_eq.1 hdots]
      · cases hparent

/-- The steps of a path without `..`. -/
theorem steps_forward (hparents : .parent ∉ p.components) :
    ∀ s ∈ p.steps, isFiller s.toList = false ∧ s ≠ ".." := by
  intro s hs
  refine ⟨?_, fun hdots => hparents (mem_steps_parent.1 (hdots ▸ hs))⟩
  obtain ⟨part, hpart, rfl⟩ := List.mem_map.1 hs
  simpa using (List.mem_filter.1 hpart).2

theorem IsParent.noParents {last : String} (h : IsParent q p last)
    (hparents : .parent ∉ p.components) : .parent ∉ q.components := by
  rw [← mem_steps_parent] at hparents ⊢
  rw [h.steps] at hparents
  exact fun hmem => hparents (List.mem_append_left _ hmem)

theorem IsParent.noNul {last : String} (h : IsParent q p last)
    (hnul : p.text.toList.contains '\x00' = false) : q.text.toList.contains '\x00' = false := by
  rw [← Bool.not_eq_true, List.contains_iff_mem] at hnul ⊢
  exact fun hmem => hnul (h.text.subset hmem)

theorem length_steps (p : FilePath) : p.steps.length ≤ p.components.length := by
  simp [components_eq, steps, bodyOf]

end FilePath

/-! ## Following the steps -/

namespace FileSystem

open FilePath

variable {fs : FileSystem} {p : FilePath} {here : Place}

/-- Where a path begins. -/
def origin (fs : FileSystem) (p : FilePath) : Place :=
  if p.isAbsolute then [] else fs.workingDirectory

theorem origin_of_grows {fs' : FileSystem} {touched : Place → Prop} (h : Grows touched fs fs')
    (p : FilePath) : fs'.origin p = fs.origin p := by
  rw [origin, origin, h.workingDirectory]

theorem origin_parent {q : FilePath} {last : String} (h : IsParent q p last) (fs : FileSystem) :
    fs.origin q = fs.origin p := by
  rw [origin, origin, h.isAbsolute]

/-- Whatever the part, it cannot be followed where there is no directory. -/
theorem follow_eq_of_not_directory (h : fs.node? here ≠ some .directory) (part part' : String) :
    ∃ e, fs.follow here part = .error e ∧ fs.follow here part' = .error e := by
  unfold follow
  cases hnode : fs.node? here with
  | none => exact ⟨_, rfl, rfl⟩
  | some n =>
    cases n with
    | directory => exact absurd hnode h
    | file c => exact ⟨_, rfl, rfl⟩

theorem follow_filler {part : String} (hdirectory : fs.node? here = some .directory)
    (h : isFiller part.toList) : fs.follow here part = .ok here := by
  rw [isFiller_toList] at h
  simp [follow, hdirectory, h]

theorem foldlM_follow_fillers {parts : List String} (hdirectory : fs.node? here = some .directory)
    (h : ∀ part ∈ parts, isFiller part.toList) : parts.foldlM fs.follow here = .ok here := by
  induction parts with
  | nil => rfl
  | cons part parts ih =>
    rw [List.foldlM_cons, follow_filler hdirectory (h part (.head _))]
    exact ih fun part h' => h part (.tail _ h')

/-- Fillers do not count before a part that leads somewhere: their check is made there again. -/
theorem foldlM_follow_filter {init : List String} {last : String}
    (hlast : isFiller last.toList = false) :
    (init ++ [last]).foldlM fs.follow here =
      ((init ++ [last]).filter fun part => !isFiller part.toList).foldlM fs.follow here := by
  induction init generalizing here with
  | nil => simp [hlast]
  | cons part init ih =>
    rw [List.cons_append, List.foldlM_cons]
    by_cases hpart : isFiller part.toList
    · rw [List.filter_cons_of_neg (by simp [hpart])]
      by_cases hdirectory : fs.node? here = some .directory
      · rw [follow_filler hdirectory hpart]
        exact ih
      · obtain ⟨next, rest, hnext⟩ : ∃ next rest,
            ((init ++ [last]).filter fun part => !isFiller part.toList) = next :: rest :=
          List.exists_cons_of_ne_nil (by simp [hlast])
        obtain ⟨e, he, he'⟩ := follow_eq_of_not_directory hdirectory part next
        rw [hnext, List.foldlM_cons, he, he']
        rfl
    · rw [List.filter_cons_of_pos (by simp [hpart]), List.foldlM_cons]
      exact congrArg _ (funext fun there => ih)

theorem steps_eq_filter (p : FilePath) :
    p.steps = (pathParts p).filter fun part => !isFiller part.toList := by
  rw [steps, pathParts, List.filter_map]
  simp [partsOf, Function.comp_def]

theorem newPlace_nul (hnul : p.text.toList.contains '\x00' = true) :
    fs.newPlace p = .error (.custom "file name contained an unexpected NUL byte") := by
  have htext : p.text.isEmpty = false := by
    rw [← Bool.not_eq_true, String.isEmpty_iff]
    intro htext
    rw [htext] at hnul
    exact absurd hnul (by decide)
  rw [newPlace, placeOf, if_neg (by simp [htext]), if_pos hnul]

/-- A trimmed path is followed step by step. -/
theorem newPlace_eq_steps (hp : p.IsTrimmed) (htext : p.text ≠ "")
    (hnul : p.text.toList.contains '\x00' = false)
    (horigin : fs.node? (fs.origin p) = some .directory) :
    fs.newPlace p = p.steps.foldlM fs.follow (fs.origin p) := by
  rw [newPlace, placeOf, if_neg (by simpa using htext), if_neg (Bool.eq_false_iff.1 hnul)]
  show (trimmedParts p).foldlM fs.follow (fs.origin p) = _
  by_cases hsteps : p.steps = []
  · have hfillers : ∀ part ∈ pathParts p, isFiller part.toList := by
      rw [steps_eq_filter] at hsteps
      simpa using hsteps
    obtain ⟨rest, hparts, -⟩ := trimmedParts_append p
    rw [hsteps, List.foldlM_nil]
    refine foldlM_follow_fillers horigin fun part hpart => hfillers part ?_
    rw [hparts]
    exact List.mem_append_left _ hpart
  · obtain ⟨init, last, hlast⟩ := (List.eq_nil_or_concat (partsOf p.text.toList)).resolve_left
      Text.splitOn_ne_nil
    rw [List.concat_eq_append] at hlast
    have hfiller : isFiller last = false := hp hsteps last (by simp [hlast])
    have hparts : pathParts p = init.map String.ofList ++ [String.ofList last] := by
      rw [pathParts]
      exact (congrArg _ hlast).trans List.map_append
    have htrimmed : trimmedParts p = pathParts p := by
      have hempty : last ≠ [] := by
        rintro rfl
        exact absurd hfiller (by decide)
      rw [trimmedParts, hparts, List.reverse_append]
      simp [hempty]
    rw [htrimmed, steps_eq_filter, hparts, foldlM_follow_filter (by simpa using hfiller)]

section

variable {q : FilePath} {last : String} (hq : IsParent q p last) (hp : p.IsTrimmed)
  (hnul : p.text.toList.contains '\x00' = false)
  (horigin : fs.node? (fs.origin p) = some .directory)

include hq hp hnul horigin

/-- The last step to a path is made from where its directory is. -/
theorem newPlace_parent (htext : q.text ≠ "") :
    fs.newPlace p = fs.newPlace q >>= fun here => fs.follow here last := by
  have hptext : p.text ≠ "" := fun h => by
    obtain ⟨rest, hrest⟩ := hq.text
    have hnil : q.text.toList ++ rest = [] := by rw [hrest, h]; rfl
    exact htext (String.toList_eq_nil_iff.1 (List.append_eq_nil_iff.1 hnil).1)
  rw [newPlace_eq_steps hp hptext hnul horigin, hq.steps, List.foldlM_append,
    newPlace_eq_steps hq.trimmed htext (hq.noNul hnul) (by rwa [origin_parent hq]),
    origin_parent hq]
  refine congrArg _ (funext fun here => ?_)
  rw [List.foldlM_cons]
  cases fs.follow here last <;> rfl

theorem newPlace_top (htext : q.text = "") : fs.newPlace p = fs.follow (fs.origin p) last := by
  have hsteps : p.steps = [last] := by
    rw [hq.steps, show q = ⟨""⟩ by rw [← htext]]
    rfl
  have hptext : p.text ≠ "" := fun h => by
    rw [show p = ⟨""⟩ by rw [← h]] at hsteps
    cases hsteps
  rw [newPlace_eq_steps hp hptext hnul horigin, hsteps, List.foldlM_cons]
  cases fs.follow (fs.origin p) last <;> rfl

end

end FileSystem

end Files

end WrapperGen
