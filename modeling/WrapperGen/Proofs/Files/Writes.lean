import WrapperGen.Proofs.Files.Paths
/-!
# What writing leaves as it is

* `place_eq`, `newPlace_eq`: a path that can be followed leads to its lexical place.
* `Grows`: directories stay, and so do the files outside some places. Making directories and
  writing a file make a file system grow (`makeDirectories_grows`, `write_grows`).
* `readText_of_grows`: a file system that grew has the same text in a file that was left alone.
-/

namespace WrapperGen.Files

namespace FileSystem

variable {fs fs' : FileSystem} {p : FilePath} {here there : Place}

/-! ## Places -/

/-- Where a part of a path leads. -/
def enterPart (here : Place) (part : String) : Place :=
  if FilePath.isFiller part.toList then here
  else (FilePath.partComponent part.toList).enter here

theorem isFiller_toList (part : String) :
    FilePath.isFiller part.toList = (part.isEmpty || part == ".") := by
  have hdot : (part.toList == ['.']) = (part == ".") := by
    rw [Bool.eq_iff_iff, beq_iff_eq, beq_iff_eq]
    exact (String.toList_inj : part.toList = ".".toList ↔ part = ".")
  have hempty : (part.toList == []) = part.isEmpty := by
    rw [Bool.eq_iff_iff, beq_iff_eq, String.isEmpty_iff, String.toList_eq_nil_iff]
  rw [FilePath.isFiller, hdot, hempty]

theorem enterPart_filler {part : String} (h : FilePath.isFiller part.toList) :
    enterPart here part = here := by
  rw [enterPart, if_pos h]

theorem enterPart_name {part : String} (hfiller : FilePath.isFiller part.toList = false)
    (hparent : part ≠ "..") : enterPart here part = here ++ [part] := by
  have hparent' : part.toList ≠ ['.', '.'] := fun h => hparent (String.toList_inj.1 h)
  simp [enterPart, hfiller, FilePath.partComponent, hparent', Component.enter]

theorem follow_ok {part : String} (h : fs.follow here part = .ok there) :
    fs.node? here = some .directory ∧ there = enterPart here part := by
  unfold follow at h
  split at h
  · cases h
  · cases h
  · rename_i hdirectory
    refine ⟨hdirectory, ?_⟩
    split at h
    · rename_i hfiller
      cases h
      rw [enterPart_filler ((isFiller_toList part).trans hfiller)]
    · rename_i hfiller
      rw [Bool.not_eq_true, ← isFiller_toList] at hfiller
      split at h
      · rename_i hparent
        cases h
        rw [beq_iff_eq.1 hparent]
        rfl
      · rename_i hparent
        split at h
        · cases h
        · cases h
          rw [enterPart_name hfiller (by simpa using hparent)]

theorem foldlM_follow_ok {parts : List String} (h : parts.foldlM fs.follow here = .ok there) :
    there = parts.foldl enterPart here := by
  induction parts generalizing here with
  | nil => cases h; rfl
  | cons part parts ih =>
    rw [List.foldlM_cons] at h
    cases hpart : fs.follow here part with
    | error e => rw [hpart] at h; cases h
    | ok next =>
      rw [hpart] at h
      rw [ih h, (follow_ok hpart).2, List.foldl_cons]

theorem foldl_enterPart (parts : List String) :
    parts.foldl enterPart here =
      (((parts.map String.toList).filter (!FilePath.isFiller ·)).map
        FilePath.partComponent).foldl Component.enter here := by
  induction parts generalizing here with
  | nil => rfl
  | cons part parts ih =>
    rw [List.foldl_cons, ih, List.map_cons, List.filter_cons, enterPart]
    split
    · rename_i h
      rw [if_neg (by simp [h])]
    · rename_i h
      rw [if_pos (by simp [h]), List.map_cons, List.foldl_cons]

theorem foldl_leading (cs : List Char) :
    (FilePath.leading cs).foldl Component.enter here = here := by
  unfold FilePath.leading
  split <;> rfl

/-- The place of a path that ends in a name ends in that name. -/
theorem lexicalPlace_of_name (workingDirectory : Place) {cs : List Component} {name : String}
    (h : p.components = cs ++ [.normal name]) :
    ∃ here, lexicalPlace workingDirectory p = here ++ [name] := by
  rw [lexicalPlace, h, List.foldl_append]
  exact ⟨_, rfl⟩

/-- The parts of a path lead to its lexical place. -/
theorem foldl_pathParts (workingDirectory : Place) (p : FilePath) :
    (pathParts p).foldl enterPart (if p.isAbsolute then [] else workingDirectory) =
      lexicalPlace workingDirectory p := by
  rw [lexicalPlace, FilePath.components_eq, List.foldl_append, foldl_leading, foldl_enterPart,
    pathParts, List.map_map]
  simp [FilePath.bodyOf, FilePath.partsOf, Function.comp_def]

/-- What is trimmed of the parts of a path leads nowhere. -/
theorem trimmedParts_append (p : FilePath) :
    ∃ rest, pathParts p = trimmedParts p ++ rest ∧ ∀ part ∈ rest, part.isEmpty := by
  refine ⟨((pathParts p).reverse.takeWhile (·.isEmpty)).reverse, ?_, fun part h => ?_⟩
  · rw [trimmedParts, ← List.reverse_append, List.takeWhile_append_dropWhile, List.reverse_reverse]
  · exact List.all_eq_true.1 List.all_takeWhile part (List.mem_reverse.1 h)

theorem foldl_trimmedParts (p : FilePath) :
    (trimmedParts p).foldl enterPart here = (pathParts p).foldl enterPart here := by
  obtain ⟨rest, hparts, hrest⟩ := trimmedParts_append p
  rw [hparts, List.foldl_append]
  generalize (trimmedParts p).foldl enterPart here = there
  clear hparts
  induction rest with
  | nil => rfl
  | cons part rest ih =>
    rw [List.foldl_cons, enterPart_filler (by simp [isFiller_toList, hrest part (.head _)])]
    exact ih fun part h => hrest part (.tail _ h)

theorem placeOf_ok {parts : List String} (h : fs.placeOf p parts = .ok here) :
    p.text.isEmpty = false ∧ p.text.toList.contains '\x00' = false ∧
      parts.foldlM fs.follow (if p.isAbsolute then [] else fs.workingDirectory) = .ok here := by
  unfold placeOf at h
  split at h
  · cases h
  · rename_i hempty
    split at h
    · cases h
    · rename_i hnul
      exact ⟨by simpa using hempty, by simpa using hnul, h⟩

/-- A path that can be followed leads to its lexical place. -/
theorem place_eq (h : fs.place p = .ok here) : here = lexicalPlace fs.workingDirectory p := by
  rw [foldlM_follow_ok (placeOf_ok h).2.2, foldl_pathParts]

theorem newPlace_eq (h : fs.newPlace p = .ok here) : here = lexicalPlace fs.workingDirectory p := by
  rw [foldlM_follow_ok (placeOf_ok h).2.2, foldl_trimmedParts, foldl_pathParts]

/-! ## Nodes -/

theorem node?_nil (fs : FileSystem) : fs.node? [] = some .directory := rfl

theorem find?_replace (entries : List (Place × Node)) (here there : Place) (n : Node) :
    ((entries.map fun old => if old.1 == here then (here, n) else old).find? (·.1 == there)).map
        (·.2) =
      if there = here then (entries.find? (·.1 == here)).map fun _ => n
      else (entries.find? (·.1 == there)).map (·.2) := by
  induction entries with
  | nil => simp
  | cons old entries ih =>
    rw [List.map_cons, List.find?_cons, List.find?_cons, List.find?_cons]
    by_cases hold : old.1 = here
    · by_cases hthere : there = here
      · simp [hold, hthere]
      · rw [if_neg hthere] at ih ⊢
        have hother : (here == there) = false := beq_eq_false_iff_ne.2 fun h => hthere h.symm
        simp only [hold, beq_self_eq_true, if_true, hother, ih]
    · rw [beq_eq_false_iff_ne.2 hold]
      by_cases hfound : old.1 = there
      · have hthere : ¬ there = here := fun h => hold (hfound.trans h)
        simp [hfound, hthere]
      · simp only [Bool.false_eq_true, if_false, beq_eq_false_iff_ne.2 hfound, ih]

theorem node?_set_self (fs : FileSystem) (n : Node) (h : here ≠ []) :
    (fs.set here n).node? here = some n := by
  unfold node? set
  rw [if_neg (by simpa using h)]
  dsimp only
  split
  · rename_i hfound
    rw [find?_replace, if_pos rfl]
    obtain ⟨old, hold⟩ := Option.isSome_iff_exists.1 hfound
    rw [hold]
    rfl
  · rename_i hfound
    rw [List.find?_append, Option.not_isSome_iff_eq_none.1 hfound]
    simp

theorem node?_set_other (fs : FileSystem) (n : Node) (h : there ≠ here) :
    (fs.set here n).node? there = fs.node? there := by
  unfold node? set
  split
  · rfl
  · dsimp only
    split
    · rw [find?_replace, if_neg h]
    · rw [List.find?_append]
      have hother : ¬ here = there := fun hh => h hh.symm
      cases fs.entries.find? (·.1 == there) <;> simp [hother]

theorem set_set (fs : FileSystem) (h : here ≠ []) (n n' : Node) :
    (fs.set here n).set here n' = fs.set here n' := by
  have hfound : ((fs.set here n).entries.find? (·.1 == here)).isSome := by
    have hnode := node?_set_self fs n h
    rw [node?, if_neg (by simpa using h)] at hnode
    obtain ⟨e, he, -⟩ := Option.map_eq_some_iff.1 hnode
    rw [he]
    rfl
  rw [set, if_pos hfound]
  unfold set
  split
  · rw [List.map_map]
    refine congrArg (FileSystem.mk · _) (List.map_congr_left fun e _ => ?_)
    by_cases he : e.1 = here <;> simp [he]
  · rename_i hfree
    have hother : ∀ e ∈ fs.entries, (e.1 == here) = false := by
      simpa using List.find?_eq_none.1 (Option.not_isSome_iff_eq_none.1 hfree)
    rw [List.map_append, List.map_congr_left (g := id) fun e he => by simp [hother e he]]
    simp

/-- What is set outside a directory, or is no file, does not count among its files. -/
theorem filesBelow_set {root : Place} {n : Node}
    (h : (fs.node? here = none ∧ n = .directory) ∨ ¬ root <+: here) :
    (fs.set here n).filesBelow root = fs.filesBelow root := by
  unfold filesBelow set
  split
  · rename_i hfound
    have hroot : ¬ root <+: here := by
      refine h.resolve_left fun hfree => ?_
      obtain ⟨old, hold⟩ := Option.isSome_iff_exists.1 hfound
      rw [node?] at hfree
      split at hfree
      · exact nomatch hfree.1
      · exact nomatch (congrArg (Option.map _) hold).symm.trans hfree.1
    rw [List.filterMap_map]
    congr 1
    funext e
    by_cases he : e.1 = here
    · obtain ⟨p, old⟩ := e
      obtain rfl : p = here := he
      cases old <;> cases n <;> simp [List.isPrefixOf_iff_prefix, hroot]
    · simp [he]
  · dsimp only
    rw [List.filterMap_append]
    rcases h with ⟨-, rfl⟩ | hroot
    · simp
    · cases n <;> simp [List.isPrefixOf_iff_prefix, hroot]

/-! ## Growth -/

/-- Directories stay, and so do the files outside `touched`, where no file is added. -/
structure Grows (touched : Place → Prop) (fs fs' : FileSystem) : Prop where
  workingDirectory : fs'.workingDirectory = fs.workingDirectory
  directory : ∀ here, fs.node? here = some .directory → fs'.node? here = some .directory
  file : ∀ here c, ¬ touched here →
    (fs'.node? here = some (.file c) ↔ fs.node? here = some (.file c))
  /-- A file stays a file, whatever it holds. -/
  occupied : ∀ here c, fs.node? here = some (.file c) → ∃ c', fs'.node? here = some (.file c')
  filesBelow : ∀ root, (∀ here, touched here → ¬ root <+: here) →
    fs'.filesBelow root = fs.filesBelow root

variable {touched : Place → Prop}

theorem Grows.refl (fs : FileSystem) : Grows touched fs fs :=
  ⟨rfl, fun _ h => h, fun _ _ _ => .rfl, fun _ c h => ⟨c, h⟩, fun _ _ => rfl⟩

theorem Grows.trans {fs'' : FileSystem} (h : Grows touched fs fs') (h' : Grows touched fs' fs'') :
    Grows touched fs fs'' where
  workingDirectory := h'.workingDirectory.trans h.workingDirectory
  directory here hd := h'.directory here (h.directory here hd)
  file here c ht := (h'.file here c ht).trans (h.file here c ht)
  occupied here c hf := by
    obtain ⟨c', hc'⟩ := h.occupied here c hf
    exact h'.occupied here c' hc'
  filesBelow root hroot := (h'.filesBelow root hroot).trans (h.filesBelow root hroot)

/-- More places may be touched. -/
theorem Grows.mono {touched' : Place → Prop} (h : Grows touched fs fs')
    (hsub : ∀ here, touched here → touched' here) : Grows touched' fs fs' where
  workingDirectory := h.workingDirectory
  directory := h.directory
  file here c ht := h.file here c fun htouched => ht (hsub here htouched)
  occupied := h.occupied
  filesBelow root hroot := h.filesBelow root fun here htouched => hroot here (hsub here htouched)

/-- Nothing happens to directories, and to files only where they are touched. -/
theorem set_grows {n : Node} (hdirectory : fs.node? here ≠ some .directory)
    (hnode : (fs.node? here = none ∧ n = .directory) ∨ (touched here ∧ n ≠ .directory)) :
    Grows touched fs (fs.set here n) := by
  have hself : (fs.set here n).node? here = some n :=
    node?_set_self fs n fun hroot => hdirectory (hroot ▸ node?_nil fs)
  refine ⟨rfl, fun there hd => ?_, fun there c ht => ?_, fun there c hf => ?_, fun root hroot => ?_⟩
  · have hother : there ≠ here := fun h => hdirectory (h ▸ hd)
    rw [node?_set_other fs n hother, hd]
  · by_cases hthere : there = here
    · obtain ⟨hfree, rfl⟩ := hnode.resolve_right fun h => ht (hthere ▸ h.1)
      simp [hthere, hself, hfree]
    · rw [node?_set_other fs n hthere]
  · by_cases hthere : there = here
    · subst hthere
      obtain ⟨-, hn⟩ := hnode.resolve_left fun h => nomatch h.1.symm.trans hf
      cases n with
      | directory => exact absurd rfl hn
      | file c' => exact ⟨c', hself⟩
    · exact ⟨c, (node?_set_other fs n hthere).trans hf⟩
  · exact filesBelow_set (hnode.imp_right fun h => hroot here h.1)

/-! ## Directories that are made -/

/-- What creating a directory does. -/
theorem createDirectory_ok (h : fs.createDirectory p = .ok fs') :
    fs.newPlace p = .ok (lexicalPlace fs.workingDirectory p) ∧
      fs.node? (lexicalPlace fs.workingDirectory p) = none ∧
      fs' = fs.set (lexicalPlace fs.workingDirectory p) .directory := by
  unfold createDirectory at h
  cases hplace : fs.newPlace p with
  | error e => rw [hplace] at h; cases h
  | ok target =>
    simp only [hplace, bind, Except.bind] at h
    rw [← newPlace_eq hplace]
    split at h
    · cases h
    · rename_i hfree
      cases h
      exact ⟨rfl, hfree, rfl⟩

theorem createDirectory_grows (h : fs.createDirectory p = .ok fs') : Grows touched fs fs' := by
  obtain ⟨-, hfree, rfl⟩ := createDirectory_ok h
  exact set_grows (by rw [hfree]; exact nofun) (.inl ⟨hfree, rfl⟩)

section

variable {K : FileSystem → Prop}

theorem makeDirectory_keeps (hK : ∀ fs fs' p, K fs → fs.createDirectory p = .ok fs' → K fs')
    (p : FilePath) (h : K fs) : K (fs.makeDirectory p).1 := by
  unfold makeDirectory
  split
  · rename_i hcreate
    exact hK _ _ _ h hcreate
  · exact h

theorem makeUpTo_keeps (hK : ∀ fs fs' p, K fs → fs.createDirectory p = .ok fs' → K fs')
    (n : Nat) (p : FilePath) (h : K fs) : K (fs.makeUpTo n p).1 := by
  induction n generalizing fs p with
  | zero => exact makeDirectory_keeps hK p h
  | succ n ih =>
    have hmade := makeDirectory_keeps hK p h
    unfold makeUpTo
    split
    · exact h
    · split
      · rename_i missing hmissing
        rw [hmissing] at hmade
        split
        · exact hmade
        · rename_i q _
          have habove := ih q hmade
          split
          · rename_i above hq
            rw [hq] at habove
            exact makeDirectory_keeps hK p habove
          · rename_i hq
            rwa [hq] at habove
      · exact hmade

/-- What creating one directory keeps is kept when a directory and those above it are made. -/
theorem makeDirectories_keeps (hK : ∀ fs fs' p, K fs → fs.createDirectory p = .ok fs' → K fs')
    (p : FilePath) (h : K fs) : K (fs.makeDirectories p).1 :=
  makeUpTo_keeps hK _ p h

end

theorem makeDirectories_grows (fs : FileSystem) (p : FilePath) (touched : Place → Prop) :
    Grows touched fs (fs.makeDirectories p).1 :=
  makeDirectories_keeps (K := Grows touched fs)
    (fun _ _ _ h hcreate => h.trans (createDirectory_grows hcreate)) p (.refl fs)

theorem createDirectories_ok : fs.createDirectories p = .ok fs' ↔
    fs.makeDirectories p = (fs', none) := by
  unfold createDirectories
  split <;> simp_all

/-! ## Files that are written -/


/-- What writing a file does. -/
theorem write_ok {content : Content} (h : fs.write p content = .ok fs') :
    fs.newPlace p = .ok (lexicalPlace fs.workingDirectory p) ∧ ¬ p.endsInSlash ∧
      fs.node? (lexicalPlace fs.workingDirectory p) ≠ some .directory ∧
      fs' = fs.set (lexicalPlace fs.workingDirectory p) (.file content) := by
  unfold write at h
  cases hplace : fs.newPlace p with
  | error e => rw [hplace] at h; cases h
  | ok target =>
    simp only [hplace, bind, Except.bind] at h
    rw [← newPlace_eq hplace]
    split at h
    · cases h
    · rename_i hok
      cases h
      simp only [Bool.or_eq_true, beq_iff_eq, not_or] at hok
      exact ⟨rfl, hok.1, hok.2, rfl⟩

theorem write_grows {content : Content} (h : fs.write p content = .ok fs') :
    Grows (· = lexicalPlace fs.workingDirectory p) fs fs' := by
  obtain ⟨-, -, hdirectory, rfl⟩ := write_ok h
  exact set_grows hdirectory (.inr ⟨rfl, nofun⟩)

/-! ## Reading -/

theorem follow_of_grows {part : String} (hg : Grows touched fs fs')
    (h : fs.follow here part = .ok there) : fs'.follow here part = .ok there := by
  have hdirectory := (follow_ok h).1
  unfold follow at h ⊢
  rw [hdirectory] at h
  rw [hg.directory here hdirectory]
  exact h

theorem foldlM_follow_of_grows {parts : List String} (hg : Grows touched fs fs')
    (h : parts.foldlM fs.follow here = .ok there) : parts.foldlM fs'.follow here = .ok there := by
  induction parts generalizing here with
  | nil => exact h
  | cons part parts ih =>
    rw [List.foldlM_cons] at h ⊢
    cases hpart : fs.follow here part with
    | error e => rw [hpart] at h; cases h
    | ok next =>
      rw [hpart] at h
      rw [follow_of_grows hg hpart]
      exact ih h

theorem placeOf_of_grows {parts : List String} (hg : Grows touched fs fs')
    (h : fs.placeOf p parts = .ok here) : fs'.placeOf p parts = .ok here := by
  obtain ⟨hempty, hnul, hfollow⟩ := placeOf_ok h
  unfold placeOf
  rw [if_neg (by simp [hempty]), if_neg (Bool.eq_false_iff.1 hnul), hg.workingDirectory]
  exact foldlM_follow_of_grows hg hfollow

theorem readText_iff {s : String} :
    fs.readText p = .ok s ↔ ∃ here, fs.place p = .ok here ∧
      fs.node? here = some (.file (.text s)) := by
  unfold readText find
  constructor
  · intro h
    cases hplace : fs.place p with
    | error e => simp [hplace, bind, Except.bind] at h
    | ok here =>
      refine ⟨here, rfl, ?_⟩
      simp only [hplace, bind, Except.bind] at h
      cases hnode : fs.node? here with
      | none => simp [hnode] at h
      | some node =>
        simp only [hnode] at h
        cases node with
        | directory => cases h
        | file content =>
          cases content with
          | text s' => cases h; rfl
          | binary bytes => cases h
  · rintro ⟨here, hplace, hnode⟩
    simp [hplace, hnode, bind, Except.bind]

/-- A file that was left alone has the same text. -/
theorem readText_of_grows {s : String} (hg : Grows touched fs fs')
    (hp : ¬ touched (lexicalPlace fs.workingDirectory p)) (h : fs.readText p = .ok s) :
    fs'.readText p = .ok s := by
  obtain ⟨here, hplace, hnode⟩ := readText_iff.1 h
  rw [← place_eq hplace] at hp
  exact readText_iff.2 ⟨here, placeOf_of_grows hg hplace, (hg.file here _ hp).2 hnode⟩

/-- Nothing is trimmed of a path without a slash at its end. -/
theorem trimmedParts_eq (hslash : ¬ p.endsInSlash) (hempty : p.text ≠ "") :
    trimmedParts p = pathParts p := by
  have hcs : p.text.toList ≠ [] := fun h => hempty (String.toList_eq_nil_iff.1 h)
  have hlast : p.text.toList.getLast? ≠ some '/' := fun h =>
    hslash (by rw [FilePath.endsInSlash, h]; rfl)
  obtain ⟨parts, last, hparts, hne⟩ := Text.splitOn_getLast [] (.inr hcs) hlast
  have hlast : (String.ofList last).isEmpty = false := by simpa [String.isEmpty_iff] using hne
  rw [trimmedParts, pathParts, hparts, List.map_append, List.reverse_append]
  simp [hlast]

theorem write_ne_root {content : Content} (h : fs.write p content = .ok fs') :
    lexicalPlace fs.workingDirectory p ≠ [] := fun hroot => by
  obtain ⟨-, -, hdirectory, -⟩ := write_ok h
  rw [hroot] at hdirectory
  exact hdirectory (node?_nil fs)

/-- A file has the text that was written. -/
theorem readText_writeText {s : String} (h : fs.writeText p s = .ok fs') :
    fs'.readText p = .ok s := by
  have hg := write_grows h
  have hroot := write_ne_root h
  obtain ⟨hplace, hslash, -, rfl⟩ := write_ok h
  have hempty := (placeOf_ok hplace).1
  refine readText_iff.2 ⟨_, placeOf_of_grows hg ?_, node?_set_self fs _ hroot⟩
  rw [← trimmedParts_eq hslash (by simpa using hempty)]
  exact hplace

/-- Writing the same again changes nothing. -/
theorem writeText_again {s : String} (h : fs.writeText p s = .ok fs') :
    fs'.writeText p s = .ok fs' := by
  have hg := write_grows h
  have hroot := write_ne_root h
  obtain ⟨hplace, hslash, -, rfl⟩ := write_ok h
  rw [writeText, write, show FileSystem.newPlace _ p = .ok _ from placeOf_of_grows hg hplace]
  simp [bind, Except.bind, hslash, node?_set_self fs _ hroot, set_set fs hroot]

end FileSystem

end WrapperGen.Files
