import WrapperGen.Proofs.Files.Parents
/-!
# Making directories

* `IsTree`: everything is in a directory. Making directories and writing files leave a tree a tree.
* `Barred`: what keeps a directory from being made. In a tree it is the only reason for a failure
  (`makeDirectories_barred`), and it is there for good (`Barred.of_grows`): whoever makes the
  directory again changes nothing and fails the same way (`Barred.makeDirectories`).
* `Unwritable`: the same for files.
-/

namespace WrapperGen.Files

section

variable {ε σ α : Type} {f : σ → α → Except ε σ} {xs : List α} {s t : σ}

theorem foldlM_append_of_ok (h : xs.foldlM f s = .ok t) (ys : List α) :
    (xs ++ ys).foldlM f s = ys.foldlM f t := by
  rw [List.foldlM_append, h]
  rfl

theorem foldlM_append_of_error {e : ε} (h : xs.foldlM f s = .error e) (ys : List α) :
    (xs ++ ys).foldlM f s = .error e := by
  rw [List.foldlM_append, h]
  rfl

theorem foldlM_append_eq_ok {ys : List α} (h : (xs ++ ys).foldlM f s = .ok t) :
    ∃ mid, xs.foldlM f s = .ok mid ∧ ys.foldlM f mid = .ok t := by
  cases hxs : xs.foldlM f s with
  | error e =>
    rw [foldlM_append_of_error hxs] at h
    cases h
  | ok mid => exact ⟨mid, rfl, (foldlM_append_of_ok hxs ys).symm.trans h⟩

theorem foldlM_singleton (a : α) : [a].foldlM f s = f s a := by
  rw [List.foldlM_cons]
  cases f s a <;> rfl

end

namespace FilePath

instance (cs : List Char) : Decidable (IsName cs) :=
  decidable_of_iff ('/' ∉ cs ∧ isFiller cs = false ∧ cs ≠ ['.', '.'])
    ⟨fun h => ⟨h.1, h.2.1, h.2.2⟩, fun h => ⟨h.noSlash, h.notFiller, h.notParent⟩⟩

end FilePath

namespace FileSystem

open FilePath

variable {fs fs' : FileSystem} {p q : FilePath} {here there : Place} {touched : Place → Prop}

theorem foldl_enterPart_names {steps : List String}
    (h : ∀ s ∈ steps, isFiller s.toList = false ∧ s ≠ "..") :
    steps.foldl enterPart here = here ++ steps := by
  induction steps generalizing here with
  | nil => exact (List.append_nil here).symm
  | cons s steps ih =>
    obtain ⟨hfiller, hparent⟩ := h s (.head _)
    rw [List.foldl_cons, enterPart_name hfiller hparent, ih fun t ht => h t (.tail _ ht),
      List.append_assoc]
    rfl

/-! ## Trees -/

/-- Everything is in a directory and has a name. -/
structure IsTree (fs : FileSystem) : Prop where
  workingDirectory : fs.node? fs.workingDirectory = some .directory
  parent : ∀ e ∈ fs.entries, fs.node? e.1.dropLast = some .directory
  name : ∀ e ∈ fs.entries, ∀ name ∈ e.1, IsName name.toList

instance (fs : FileSystem) : Decidable fs.IsTree :=
  decidable_of_iff (fs.node? fs.workingDirectory = some .directory ∧
      (∀ e ∈ fs.entries, fs.node? e.1.dropLast = some .directory) ∧
      ∀ e ∈ fs.entries, ∀ name ∈ e.1, IsName name.toList)
    ⟨fun h => ⟨h.1, h.2.1, h.2.2⟩, fun h => ⟨h.workingDirectory, h.parent, h.name⟩⟩

theorem mem_entries_of_node? {n : Node} (h : fs.node? here = some n) (hroot : here ≠ []) :
    (here, n) ∈ fs.entries := by
  rw [node?, if_neg (by simpa using hroot)] at h
  obtain ⟨e, he, rfl⟩ := Option.map_eq_some_iff.1 h
  have hplace := List.find?_some he
  obtain rfl := beq_iff_eq.1 hplace
  exact List.mem_of_find?_eq_some he

namespace IsTree

theorem dropLast (h : fs.IsTree) {n : Node} (hnode : fs.node? here = some n) :
    fs.node? here.dropLast = some .directory := by
  by_cases hroot : here = []
  · rw [hroot]
    exact node?_nil fs
  · exact h.parent _ (mem_entries_of_node? hnode hroot)

/-- What is above something is a directory. -/
theorem above (h : fs.IsTree) {rest : List String} {n : Node}
    (hnode : fs.node? (here ++ rest) = some n) (hrest : rest ≠ []) :
    fs.node? here = some .directory := by
  induction rest using List.reverseRecOn generalizing n with
  | nil => exact absurd rfl hrest
  | append_singleton rest name ih =>
    have hparent := h.dropLast hnode
    rw [← List.append_assoc, List.dropLast_concat] at hparent
    by_cases hnil : rest = []
    · rwa [hnil, List.append_nil] at hparent
    · exact ih hparent hnil

theorem origin (h : fs.IsTree) (p : FilePath) : fs.node? (fs.origin p) = some .directory := by
  unfold FileSystem.origin
  split
  · exact node?_nil fs
  · exact h.workingDirectory

/-- What is no directory yet gets its place by its name in a directory. -/
theorem newPlace_name (h : fs.IsTree) (hplace : fs.newPlace p = .ok there)
    (hnode : fs.node? there ≠ some .directory) :
    ∃ here name, there = here ++ [name] ∧ fs.node? here = some .directory ∧
      IsName name.toList := by
  have hfollow := (placeOf_ok hplace).2.2
  have hslash : ∀ part ∈ trimmedParts p, '/' ∉ part.toList := fun part hpart => by
    obtain ⟨rest, hparts, -⟩ := trimmedParts_append p
    obtain ⟨cs, hcs, rfl⟩ := List.mem_map.1 (hparts ▸ List.mem_append_left rest hpart)
    rw [String.toList_ofList]
    exact Text.not_mem_of_mem_splitOn List.not_mem_nil hcs
  rcases List.eq_nil_or_concat (trimmedParts p) with hparts | ⟨init, last, hparts⟩
  · rw [hparts] at hfollow
    cases hfollow
    exact absurd (h.origin p) hnode
  · rw [List.concat_eq_append] at hparts
    have hlast := hslash last (by simp [hparts])
    rw [hparts] at hfollow
    obtain ⟨here, -, hstep⟩ := foldlM_append_eq_ok hfollow
    rw [foldlM_singleton] at hstep
    obtain ⟨hdirectory, hthere⟩ := follow_ok hstep
    cases hfiller : isFiller last.toList with
    | true =>
      rw [enterPart_filler hfiller] at hthere
      exact absurd (hthere ▸ hdirectory) hnode
    | false =>
      by_cases hparent : last = ".."
      · obtain rfl : there = here.dropLast := by rw [hthere, hparent]; rfl
        exact absurd (h.dropLast hdirectory) hnode
      · refine ⟨here, last, by rw [hthere, enterPart_name hfiller hparent], hdirectory, hlast,
          hfiller, fun hdots => hparent ?_⟩
        exact (String.toList_inj : last.toList = "..".toList ↔ last = "..").1 hdots

theorem set (h : fs.IsTree) (hplace : fs.newPlace p = .ok there)
    (hnode : fs.node? there ≠ some .directory) {n : Node}
    (hg : Grows touched fs (fs.set there n)) : (fs.set there n).IsTree := by
  obtain ⟨here, name, rfl, hdirectory, hname⟩ := h.newPlace_name hplace hnode
  have hentries : ∀ e ∈ (fs.set (here ++ [name]) n).entries,
      e.1 = here ++ [name] ∨ e ∈ fs.entries := by
    intro e he
    unfold FileSystem.set at he
    split at he
    · obtain ⟨old, hold, rfl⟩ := List.mem_map.1 he
      split
      · exact .inl rfl
      · exact .inr hold
    · rcases List.mem_append.1 he with he | he
      · exact .inr he
      · exact .inl (by rw [List.mem_singleton.1 he])
  refine ⟨hg.workingDirectory ▸ hg.directory _ h.workingDirectory, fun e he => ?_, fun e he => ?_⟩
  · rcases hentries e he with hthere | he
    · rw [hthere, List.dropLast_concat]
      exact hg.directory _ hdirectory
    · exact hg.directory _ (h.parent e he)
  · rcases hentries e he with hthere | he
    · rw [hthere]
      intro part hpart
      rcases List.mem_append.1 hpart with hpart | hpart
      · have hhere : here ≠ [] := List.ne_nil_of_mem hpart
        exact h.name _ (mem_entries_of_node? hdirectory hhere) part hpart
      · rwa [List.mem_singleton.1 hpart]
    · exact h.name e he

theorem createDirectory (h : fs.IsTree) (hcreate : fs.createDirectory p = .ok fs') :
    fs'.IsTree := by
  have hg : Grows (fun _ => False) fs fs' := createDirectory_grows hcreate
  obtain ⟨hplace, hfree, rfl⟩ := createDirectory_ok hcreate
  exact h.set hplace (by rw [hfree]; exact nofun) hg

theorem makeDirectories (h : fs.IsTree) (p : FilePath) : (fs.makeDirectories p).1.IsTree :=
  makeDirectories_keeps (fun _ _ _ => IsTree.createDirectory) p h

theorem write (h : fs.IsTree) {content : Content} (hwrite : fs.write p content = .ok fs') :
    fs'.IsTree := by
  have hg := write_grows hwrite
  obtain ⟨hplace, -, hnode, rfl⟩ := write_ok hwrite
  exact h.set hplace hnode hg

/-- Steps that lead to something in a tree can be followed in it, if only somewhere else. -/
theorem foldlM_follow (h : fs.IsTree) {steps : List String} {n : Node}
    (hsteps : ∀ s ∈ steps, isFiller s.toList = false ∧ s ≠ "..")
    (hfollow : steps.foldlM fs'.follow here = .ok there) (hnode : fs.node? there = some n) :
    steps.foldlM fs.follow here = .ok there := by
  induction steps generalizing here with
  | nil => exact hfollow
  | cons s steps ih =>
    obtain ⟨hfiller, hparent⟩ := hsteps s (.head _)
    rw [← List.singleton_append] at hfollow
    obtain ⟨next, hnext, hrest⟩ := foldlM_append_eq_ok hfollow
    rw [foldlM_singleton] at hnext
    obtain ⟨hdirectory', rfl⟩ := follow_ok hnext
    rw [enterPart_name hfiller hparent] at hnext hrest
    have hthere := foldlM_follow_ok hrest
    rw [foldl_enterPart_names fun t ht => hsteps t (.tail _ ht)] at hthere
    rw [hthere, List.append_assoc] at hnode
    have hdirectory : fs.node? here = some .directory := h.above hnode (List.cons_ne_nil _ _)
    have hnext' : fs.follow here s = .ok (here ++ [s]) := by
      rw [← hnext, follow, follow, hdirectory, hdirectory']
    rw [List.foldlM_cons, hnext']
    exact ih (fun t ht => hsteps t (.tail _ ht)) hrest

end IsTree

/-! ## Paths that cannot be followed -/

theorem newPlace_error_place {e : IoError} (h : fs.newPlace p = .error e) :
    fs.place p = .error e := by
  obtain ⟨rest, hparts, -⟩ := trimmedParts_append p
  unfold newPlace placeOf at h
  unfold place placeOf
  split
  · rename_i hempty
    rwa [if_pos hempty] at h
  · rename_i hempty
    rw [if_neg hempty] at h
    split
    · rename_i hnul
      rwa [if_pos hnul] at h
    · rename_i hnul
      rw [if_neg hnul] at h
      rw [hparts, foldlM_append_of_error h]

/-- What is at a path that does not lead to a directory is no directory. -/
theorem isDirectory_iff : fs.isDirectory p ↔
    ∃ here, fs.newPlace p = .ok here ∧ fs.node? here = some .directory := by
  unfold isDirectory find
  constructor
  · intro h
    cases hnew : fs.newPlace p with
    | error e => simp [newPlace_error_place hnew, bind, Except.bind] at h
    | ok here =>
      cases hplace : fs.place p with
      | error e => simp [hplace, bind, Except.bind] at h
      | ok there =>
        rw [newPlace_eq hnew, ← place_eq hplace]
        refine ⟨there, rfl, ?_⟩
        cases hnode : fs.node? there with
        | none => simp [hplace, hnode, bind, Except.bind] at h
        | some n => cases n <;> simp_all [bind, Except.bind]
  · rintro ⟨here, hnew, hnode⟩
    have hplace : fs.place p = .ok here := by
      obtain ⟨hempty, hnul, hfollow⟩ := placeOf_ok hnew
      obtain ⟨rest, hparts, hrest⟩ := trimmedParts_append p
      rw [place, placeOf, if_neg (by simp [hempty]), if_neg (Bool.eq_false_iff.1 hnul), hparts,
        foldlM_append_of_ok hfollow]
      exact foldlM_follow_fillers hnode fun part hpart => by
        simp [isFiller_toList, hrest part hpart]
    simp [hplace, hnode, bind, Except.bind]

theorem isDirectory_of_grows (h : fs.isDirectory p) (hg : Grows touched fs fs') :
    fs'.isDirectory p := by
  obtain ⟨here, hplace, hnode⟩ := isDirectory_iff.1 h
  exact isDirectory_iff.2 ⟨here, placeOf_of_grows hg hplace, hg.directory here hnode⟩

theorem not_isDirectory_of_error {e : IoError} (h : fs.newPlace p = .error e) :
    ¬ fs.isDirectory p := fun hd => by
  obtain ⟨here, hplace, -⟩ := isDirectory_iff.1 hd
  rw [h] at hplace
  cases hplace

theorem readText_error {e : IoError} (h : fs.newPlace p = .error e) : fs.readText p = .error e := by
  simp [readText, find, newPlace_error_place h, bind, Except.bind]

theorem readText_directory (h : fs.isDirectory p) : fs.readText p = .error .isADirectory := by
  unfold isDirectory at h
  unfold readText
  split at h
  · rename_i hfind
    simp [hfind, bind, Except.bind]
  · cases h

theorem follow_error_of_grows {part : String} {e : IoError} (hg : Grows touched fs fs')
    (h : fs.follow here part = .error e) (he : e ≠ .notFound) :
    fs'.follow here part = .error e := by
  unfold follow at h ⊢
  cases hnode : fs.node? here with
  | none =>
    rw [hnode] at h
    cases h
    exact absurd rfl he
  | some n =>
    rw [hnode] at h
    cases n with
    | directory => rwa [hg.directory here hnode]
    | file c =>
      obtain ⟨c', hc'⟩ := hg.occupied here c hnode
      rwa [hc']

/-- Unless something is missing, a path that cannot be followed never can. -/
theorem newPlace_error_of_grows {e : IoError} (hg : Grows touched fs fs')
    (h : fs.newPlace p = .error e) (he : e ≠ .notFound) : fs'.newPlace p = .error e := by
  have hfollow : ∀ {parts : List String} {here : Place}, parts.foldlM fs.follow here = .error e →
      parts.foldlM fs'.follow here = .error e := by
    intro parts
    induction parts with
    | nil => intro here h; cases h
    | cons part parts ih =>
      intro here h
      rw [List.foldlM_cons] at h ⊢
      cases hpart : fs.follow here part with
      | error e' =>
        rw [hpart] at h
        cases h
        rw [follow_error_of_grows hg hpart he]
        rfl
      | ok next =>
        rw [hpart] at h
        rw [follow_of_grows hg hpart]
        exact ih h
  unfold newPlace placeOf at h ⊢
  rw [hg.workingDirectory]
  split at h
  · rename_i hempty
    rw [if_pos hempty, h]
  · rename_i hempty
    rw [if_neg hempty]
    split at h
    · rename_i hnul
      rw [if_pos hnul, h]
    · rename_i hnul
      rw [if_neg hnul, hfollow h]

/-! ## Directories that cannot be made -/

/-- What keeps a directory from being made. -/
inductive Barred (fs : FileSystem) (p : FilePath) : IoError → Prop
  | unreached {e : IoError} (place : fs.newPlace p = .error e) (present : e ≠ .notFound) :
      Barred fs p e
  | file {here : Place} {c : Content} (place : fs.newPlace p = .ok here)
      (node : fs.node? here = some (.file c)) : Barred fs p .exists

theorem Barred.of_grows {e : IoError} (h : Barred fs p e) (hg : Grows touched fs fs') :
    Barred fs' p e := by
  cases h with
  | unreached hplace he => exact .unreached (newPlace_error_of_grows hg hplace he) he
  | file hplace hnode =>
    obtain ⟨c', hc'⟩ := hg.occupied _ _ hnode
    exact .file (placeOf_of_grows hg hplace) hc'

theorem Barred.ne_notFound {e : IoError} (h : Barred fs p e) : e ≠ .notFound := by
  cases h with
  | unreached _ he => exact he
  | file => exact nofun

theorem Barred.text_ne {e : IoError} (h : Barred fs p e) : p.text ≠ "" := fun htext => by
  have hplace : fs.newPlace p = .error .notFound := by simp [newPlace, placeOf, htext]
  cases h with
  | unreached hplace' he =>
    rw [hplace] at hplace'
    cases hplace'
    exact he rfl
  | file hplace' =>
    rw [hplace] at hplace'
    cases hplace'

theorem Barred.makeDirectory {e : IoError} (h : Barred fs p e) :
    fs.makeDirectory p = (fs, some e) := by
  cases h with
  | unreached hplace =>
    simp [FileSystem.makeDirectory, createDirectory, hplace, not_isDirectory_of_error hplace, bind,
      Except.bind]
  | file hplace hnode =>
    have hnot : ¬ fs.isDirectory p := fun hd => by
      obtain ⟨there, hthere, hdirectory⟩ := isDirectory_iff.1 hd
      rw [hplace] at hthere
      cases hthere
      rw [hnode] at hdirectory
      cases hdirectory
    simp [FileSystem.makeDirectory, createDirectory, hplace, hnode, hnot, bind, Except.bind]

/-- Making the directory again changes nothing and fails the same way. -/
theorem Barred.makeDirectories {e : IoError} (h : Barred fs p e) :
    fs.makeDirectories p = (fs, some e) := by
  rw [FileSystem.makeDirectories, makeUpTo, if_neg (by simpa using h.text_ne), h.makeDirectory]
  split
  · rename_i hmissing
    cases hmissing
    exact absurd rfl h.ne_notFound
  · rfl

/-- A directory that is not made is barred or missing. -/
theorem makeDirectory_failed {e : IoError} (h : fs.makeDirectory p = (fs', some e)) :
    fs' = fs ∧ (Barred fs p e ∨ e = .notFound ∧ fs.newPlace p = .error .notFound) := by
  unfold FileSystem.makeDirectory at h
  split at h
  · cases h
  · rename_i e' hcreate
    obtain ⟨rfl, he⟩ := Prod.mk.inj h
    split at he
    · cases he
    · rename_i hnot
      cases he
      refine ⟨rfl, ?_⟩
      unfold FileSystem.createDirectory at hcreate
      cases hplace : fs.newPlace p with
      | error e' =>
        simp only [hplace, bind, Except.bind] at hcreate
        cases hcreate
        by_cases he : e = .notFound
        · exact .inr ⟨he, he ▸ rfl⟩
        · exact .inl (.unreached hplace he)
      | ok there =>
        simp only [hplace, bind, Except.bind] at hcreate
        split at hcreate
        · rename_i n hnode
          cases hcreate
          cases n with
          | directory => exact absurd (isDirectory_iff.2 ⟨there, hplace, hnode⟩) hnot
          | file c => exact .inl (.file hplace hnode)
        · cases hcreate

/-! ## Directories that are there -/

theorem makeDirectory_made (h : fs.makeDirectory p = (fs', none)) : fs'.isDirectory p := by
  unfold FileSystem.makeDirectory at h
  split at h
  · rename_i hcreate
    cases h
    have hg : Grows (fun _ => False) fs fs' := createDirectory_grows hcreate
    obtain ⟨hplace, hfree, hset⟩ := createDirectory_ok hcreate
    refine isDirectory_iff.2 ⟨_, placeOf_of_grows hg hplace, ?_⟩
    rw [hset]
    exact node?_set_self fs _ fun hroot => by
      rw [hroot] at hfree
      cases hfree
  · obtain ⟨rfl, he⟩ := Prod.mk.inj h
    split at he
    · assumption
    · cases he

theorem makeUpTo_made {n : Nat} (h : fs.makeUpTo n p = (fs', none)) :
    p.text = "" ∨ fs'.isDirectory p := by
  cases n with
  | zero => exact .inr (makeDirectory_made h)
  | succ n =>
    unfold makeUpTo at h
    split at h
    · rename_i hempty
      exact .inl (by simpa using hempty)
    · split at h
      · split at h
        · cases h
        · split at h
          · exact .inr (makeDirectory_made h)
          · cases h
      · exact .inr (makeDirectory_made h)

/-- A directory that is there is not made. -/
theorem makeDirectories_of_isDirectory (h : p.text = "" ∨ fs.isDirectory p) :
    fs.makeDirectories p = (fs, none) := by
  rw [FileSystem.makeDirectories, makeUpTo]
  split
  · rfl
  · rename_i hempty
    obtain ⟨here, hplace, hnode⟩ :=
      isDirectory_iff.1 (h.resolve_left fun htext => hempty (by simp [htext]))
    have hmade : fs.makeDirectory p = (fs, none) := by
      have hthere : fs.isDirectory p := isDirectory_iff.2 ⟨here, hplace, hnode⟩
      simp [FileSystem.makeDirectory, createDirectory, hplace, hnode, hthere, bind, Except.bind]
    rw [hmade]

/-! ## Failures -/

section

variable {last : String} (hq : IsParent q p last) (hp : p.IsTrimmed)
  (horigin : fs.node? (fs.origin p) = some .directory)

include hq hp horigin

/-- In a directory nothing is missing on the way to what is to be created. -/
theorem newPlace_below_directory (h : q.text = "" ∨ fs.isDirectory q) :
    fs.newPlace p ≠ .error .notFound := by
  cases hnul : p.text.toList.contains '\x00' with
  | true =>
    rw [newPlace_nul hnul]
    exact nofun
  | false =>
    obtain ⟨here, hdirectory, hplace⟩ : ∃ here, fs.node? here = some .directory ∧
        fs.newPlace p = fs.follow here last := by
      by_cases htext : q.text = ""
      · exact ⟨_, horigin, newPlace_top hq hp hnul horigin htext⟩
      · obtain ⟨here, hplace, hdirectory⟩ := isDirectory_iff.1 (h.resolve_left htext)
        refine ⟨here, hdirectory, ?_⟩
        rw [newPlace_parent hq hp hnul horigin htext, hplace]
        rfl
    rw [hplace, follow, hdirectory]
    dsimp only
    repeat' split
    all_goals simp

variable (hnul : p.text.toList.contains '\x00' = false)

include hnul

/-- Below a barred directory nothing can be reached. -/
theorem newPlace_below_barred {e : IoError} (h : Barred fs q e) :
    fs.newPlace p = .error e ∨
      fs.newPlace p = .error .notADirectory ∧ ∃ here c, fs.newPlace q = .ok here ∧
        fs.node? here = some (.file c) := by
  rw [newPlace_parent hq hp hnul horigin h.text_ne]
  cases h with
  | unreached hplace => exact .inl (by rw [hplace]; rfl)
  | @file here c hplace hnode =>
    refine .inr ⟨?_, here, c, hplace, hnode⟩
    rw [hplace]
    show fs.follow here last = _
    rw [follow, hnode]

/-- A file on the way to a path without `..` is met in a tree, whatever else was missing. -/
theorem newPlace_below_file (htree : fs.IsTree) (hparents : .parent ∉ p.components)
    (hg : Grows touched fs fs') (hplace : fs'.newPlace q = .ok here) {c : Content}
    (hnode : fs.node? here = some (.file c)) : fs.newPlace p = .error .notADirectory := by
  have htext : q.text ≠ "" := fun htext => by
    have hempty := (placeOf_ok hplace).1
    rw [htext] at hempty
    cases hempty
  have hqorigin : fs.node? (fs.origin q) = some .directory := by rwa [origin_parent hq]
  have hqplace {fs : FileSystem} (horigin : fs.node? (fs.origin q) = some .directory) :=
    newPlace_eq_steps hq.trimmed htext (hq.noNul hnul) horigin
  rw [hqplace (by rw [origin_of_grows hg]; exact hg.directory _ hqorigin), origin_of_grows hg]
    at hplace
  have hfollow := htree.foldlM_follow (steps_forward (hq.noParents hparents)) hplace hnode
  rw [newPlace_parent hq hp hnul horigin htext, hqplace hqorigin, hfollow]
  show fs.follow here last = _
  rw [follow, hnode]

end

theorem readText_below_barred {last : String} (hq : IsParent q p last) (hp : p.IsTrimmed)
    (horigin : fs.node? (fs.origin p) = some .directory) {e : IoError} (h : Barred fs q e) :
    ∃ e', fs.readText p = .error e' := by
  cases hnul : p.text.toList.contains '\x00' with
  | true => exact ⟨_, readText_error (newPlace_nul hnul)⟩
  | false =>
    rcases newPlace_below_barred hq hp horigin hnul h with hplace | ⟨hplace, -⟩
    all_goals exact ⟨_, readText_error hplace⟩

/-- In a tree a directory is only not made if it is barred. -/
theorem makeUpTo_barred {n : Nat} {e : IoError} (htree : fs.IsTree) (hp : p.IsTrimmed)
    (hparents : .parent ∉ p.components) (hn : p.steps.length < n)
    (h : fs.makeUpTo n p = (fs', some e)) : Barred fs' p e := by
  induction n generalizing p fs' e with
  | zero => exact absurd hn (Nat.not_lt_zero _)
  | succ n ih =>
    unfold makeUpTo at h
    split at h
    · cases h
    rename_i htext
    replace htext : p.text ≠ "" := by simpa using htext
    split at h
    · rename_i missing hmade
      obtain ⟨rfl, hmissing⟩ := makeDirectory_failed hmade
      have hmissing : missing.newPlace p = .error .notFound :=
        (hmissing.resolve_left fun hbarred => hbarred.ne_notFound rfl).2
      have hnul : p.text.toList.contains '\x00' = false := by
        rw [← Bool.not_eq_true]
        intro hnul
        rw [newPlace_nul hnul] at hmissing
        cases hmissing
      have hsteps : p.steps ≠ [] := fun hnil => by
        rw [newPlace_eq_steps hp htext hnul (htree.origin p), hnil] at hmissing
        cases hmissing
      split at h
      · rename_i hparent
        exact absurd (parent?_none hparent) hsteps
      rename_i q hparent
      obtain ⟨last, hq⟩ := parent?_some hparent hsteps
      have hshorter : q.steps.length < n := by
        rw [hq.steps, List.length_append, List.length_singleton] at hn
        omega
      -- the directories above were made in between
      have hgrows : Grows (fun _ => False) missing (missing.makeUpTo n q).1 :=
        makeUpTo_keeps (K := Grows (fun _ => False) missing)
          (fun _ _ _ h hcreate => h.trans (createDirectory_grows hcreate)) n q (.refl missing)
      split at h
      all_goals
        rename_i habove
        rw [habove] at hgrows
        have horigin := hgrows.directory _ (htree.origin p)
        rw [← origin_of_grows hgrows] at horigin
      · obtain ⟨rfl, hbarred⟩ := makeDirectory_failed h
        exact hbarred.resolve_right fun hnone =>
          newPlace_below_directory hq hp horigin (makeUpTo_made habove) hnone.2
      · cases h
        have hbarred := ih hq.trimmed (hq.noParents hparents) hshorter habove
        rcases newPlace_below_barred hq hp horigin hnul hbarred with
          hplace | ⟨-, here, c, hplace, hnode⟩
        · exact .unreached hplace hbarred.ne_notFound
        · have hfile := newPlace_below_file hq hp (htree.origin p) hnul htree hparents hgrows
            hplace ((hgrows.file here c not_false).1 hnode)
          rw [hfile] at hmissing
          cases hmissing
    · rename_i hmissing
      obtain ⟨rfl, hbarred⟩ := makeDirectory_failed h
      refine hbarred.resolve_right fun hnone => ?_
      rw [hnone.1] at h
      exact hmissing _ h

theorem makeDirectories_barred {e : IoError} (htree : fs.IsTree) (hp : p.IsTrimmed)
    (hparents : .parent ∉ p.components) (h : fs.makeDirectories p = (fs', some e)) :
    Barred fs' p e :=
  makeUpTo_barred htree hp hparents (Nat.lt_succ_of_le p.length_steps) h

/-! ## Files that cannot be written -/

/-- What keeps a file from being written. -/
inductive Unwritable (fs : FileSystem) (p : FilePath) : IoError → Prop
  | unreached {e : IoError} (place : fs.newPlace p = .error e) (present : e ≠ .notFound) :
      Unwritable fs p e
  | directory (there : fs.isDirectory p) : Unwritable fs p .isADirectory

namespace Unwritable

variable {e : IoError}

theorem of_grows (h : Unwritable fs p e) (hg : Grows touched fs fs') : Unwritable fs' p e := by
  cases h with
  | unreached hplace he => exact .unreached (newPlace_error_of_grows hg hplace he) he
  | directory hthere => exact .directory (isDirectory_of_grows hthere hg)

theorem writeText (h : Unwritable fs p e) (s : String) : fs.writeText p s = .error e := by
  cases h with
  | unreached hplace => simp [FileSystem.writeText, write, hplace, bind, Except.bind]
  | directory hthere =>
    obtain ⟨here, hplace, hnode⟩ := isDirectory_iff.1 hthere
    simp [FileSystem.writeText, write, hplace, hnode, bind, Except.bind]

theorem readText (h : Unwritable fs p e) : ∃ e', fs.readText p = .error e' := by
  cases h with
  | unreached hplace => exact ⟨_, readText_error hplace⟩
  | directory hthere => exact ⟨_, readText_directory hthere⟩

/-- A file whose directory is there is only not written if it cannot be written. -/
theorem of_writeText {s : String} (hslash : ¬ p.endsInSlash)
    (hmissing : fs.newPlace p ≠ .error .notFound) (h : fs.writeText p s = .error e) :
    Unwritable fs p e := by
  unfold FileSystem.writeText write at h
  cases hplace : fs.newPlace p with
  | error e' =>
    simp only [hplace, bind, Except.bind] at h
    cases h
    exact .unreached hplace fun he => hmissing (he ▸ hplace)
  | ok here =>
    simp only [hplace, bind, Except.bind] at h
    split at h
    · rename_i hdirectory
      cases h
      refine .directory (isDirectory_iff.2 ⟨here, hplace, ?_⟩)
      simpa [hslash] using hdirectory
    · cases h

end Unwritable

end FileSystem

end WrapperGen.Files
