import WrapperGen.Output.Unit
import WrapperGen.Proofs.Files.Paths
/-!
# Paths of units

* `unitFile_isName`: the file of a unit is a name, whatever the unit is called.
* `same_unitPath`: the paths of two units are the same when their directories are and their names
  do not differ in snake case; the directories are the same when the modules are
  (`same_unitDirectory`).
* `findByPath_insert_self`, `findByPath_insert_other`: units by path.
-/

namespace WrapperGen

namespace Text

/-! ## Snake case -/

theorem slash_lt_lowerRuns : ∀ r ∈ lowerRuns, 47 < (r.1 : Int) + r.2.2.2 := by
  decide +kernel

theorem ofNat_ne_slash {n : Nat} (h : 47 < n) : Char.ofNat n ≠ '/' := by
  intro hslash
  by_cases hvalid : n.isValidChar
  · rw [Char.ofNat, dif_pos hvalid] at hslash
    have hn : n = 47 := congrArg Char.toNat hslash
    omega
  · rw [Char.ofNat, dif_neg hvalid] at hslash
    cases hslash

theorem toLower_ascii_ne_slash :
    ∀ n < 0x80, (Char.ofNat n).isAlphanum → (Char.ofNat n).toLower ≠ '/' := by
  decide +kernel

theorem toLower_noSlash {c : Char} (h : isAlphanumeric c) : '/' ∉ toLower c := by
  unfold toLower
  unfold isAlphanumeric at h
  split at h
  · rename_i hascii
    rw [if_pos hascii, List.mem_singleton]
    have hlower := toLower_ascii_ne_slash c.toNat hascii (by rwa [Char.ofNat_toNat])
    rw [Char.ofNat_toNat] at hlower
    exact hlower.symm
  · rename_i hascii
    rw [if_neg hascii]
    split
    · decide
    · split
      · rename_i r hr
        rw [List.mem_singleton]
        have hfrom : r.1 ≤ c.toNat := by
          have := List.find?_some hr
          simp only [Bool.and_eq_true, decide_eq_true_eq] at this
          exact this.1.1
        have hrun := slash_lt_lowerRuns r (List.mem_of_find?_eq_some hr)
        exact (ofNat_ne_slash (by omega)).symm
      · rw [List.mem_singleton]
        rintro rfl
        exact hascii (by decide)

theorem caseWords_subset {mode : WordMode} {acc cs w : List Char} (hw : w ∈ caseWords mode acc cs) :
    ∀ c ∈ w, c ∈ acc ∨ c ∈ cs := by
  fun_induction caseWords mode acc cs with
  | case1 => cases hw
  | case2 mode acc c =>
    obtain rfl := List.mem_singleton.1 hw
    intro d hd
    rcases List.mem_cons.1 (List.mem_reverse.1 hd) with rfl | hd
    · exact .inr (.head _)
    · exact .inl hd
  | case3 mode acc c next rest here h ih =>
    intro d hd
    rcases List.mem_cons.1 hw with rfl | hw
    · rcases List.mem_cons.1 (List.mem_reverse.1 hd) with rfl | hd
      · exact .inr (.head _)
      · exact .inl hd
    · rcases ih hw d hd with hd | hd
      · cases hd
      · exact .inr (.tail _ hd)
  | case4 mode acc c next rest here h h' ih =>
    intro d hd
    rcases List.mem_cons.1 hw with rfl | hw
    · exact .inl (List.mem_reverse.1 hd)
    · rcases ih hw d hd with hd | hd
      · exact .inr (List.mem_singleton.1 hd ▸ .head _)
      · exact .inr (.tail _ hd)
  | case5 mode acc c next rest here h h' ih =>
    intro d hd
    rcases ih hw d hd with hd | hd
    · rcases List.mem_cons.1 hd with rfl | hd
      · exact .inr (.head _)
      · exact .inl hd
    · exact .inr (.tail _ hd)

theorem alphanumericRuns_isAlphanumeric {acc cs run : List Char}
    (hacc : ∀ c ∈ acc, isAlphanumeric c) (hrun : run ∈ alphanumericRuns acc cs) :
    ∀ c ∈ run, isAlphanumeric c := by
  fun_induction alphanumericRuns acc cs with
  | case1 acc =>
    obtain rfl := List.mem_singleton.1 hrun
    exact fun c hc => hacc c (List.mem_reverse.1 hc)
  | case2 acc c cs h ih =>
    refine ih (fun d hd => ?_) hrun
    rcases List.mem_cons.1 hd with rfl | hd
    · exact h
    · exact hacc d hd
  | case3 acc c cs h ih =>
    rcases List.mem_cons.1 hrun with rfl | hrun
    · exact fun c hc => hacc c (List.mem_reverse.1 hc)
    · exact ih (fun d hd => absurd hd List.not_mem_nil) hrun

theorem lowerWord_noSlash {w : List Char} (h : ∀ c ∈ w, isAlphanumeric c) : '/' ∉ lowerWord w := by
  fun_induction lowerWord w with
  | case1 => exact List.not_mem_nil
  | case2 => decide
  | case3 c r hsigma ih =>
    rw [List.mem_append, not_or]
    exact ⟨toLower_noSlash (h c (.head _)), ih fun d hd => h d (.tail _ hd)⟩

theorem not_mem_intercalate {a : Char} {sep : List Char} (hsep : a ∉ sep) {parts : List (List Char)}
    (hparts : ∀ part ∈ parts, a ∉ part) : a ∉ sep.intercalate parts := by
  induction parts with
  | nil => exact List.not_mem_nil
  | cons part parts ih =>
    have hpart := hparts part (.head _)
    have htail := ih fun part h => hparts part (.tail _ h)
    cases parts with
    | nil => rwa [List.intercalate_singleton]
    | cons next parts =>
      rw [List.intercalate_cons_cons, List.mem_append, List.mem_append]
      rintro ((h | h) | h)
      · exact hpart h
      · exact hsep h
      · exact htail h

theorem snakeCase_noSlash (s : String) : '/' ∉ (snakeCase s).toList := by
  unfold snakeCase
  rw [String.toList_intercalate, List.map_map]
  refine not_mem_intercalate (by decide) fun part hpart => ?_
  obtain ⟨w, hw, rfl⟩ := List.mem_map.1 hpart
  obtain ⟨run, hrun, hw⟩ := List.mem_flatMap.1 hw
  have halphanumeric :=
    alphanumericRuns_isAlphanumeric (fun c hc => absurd hc List.not_mem_nil) hrun
  rw [Function.comp_apply, String.toList_ofList]
  refine lowerWord_noSlash fun c hc => ?_
  rcases caseWords_subset hw c hc with hc | hc
  · cases hc
  · exact halphanumeric c hc

end Text

namespace Files.FilePath

/-! ## Order -/

theorem Component.compare_eq {a b : Component} : a.compare b = .eq ↔ a = b := by
  cases a with
  | normal a =>
    cases b with
    | normal b => rw [Component.compare, Std.compare_eq_iff_eq, Component.normal.injEq]
    | _ => simp [Component.compare, Component.rank]
  | _ => cases b <;> simp [Component.compare, Component.rank]

theorem compareComponents_eq {as bs : List Component} :
    compareComponents as bs = .eq ↔ as = bs := by
  fun_induction compareComponents as bs with
  | case1 => simp
  | case2 => simp
  | case3 => simp
  | case4 a as b bs ih => rw [Ordering.then_eq_eq, Component.compare_eq, ih, List.cons.injEq]

theorem compare_eq {p q : FilePath} : p.compare q = .eq ↔ p.same q := by
  rw [compare, compareComponents_eq, same_iff]

end Files.FilePath

open Files

/-! ## Units -/

theorem unitFile_toList (unit : String) :
    (unitFile unit).toList = (Text.snakeCase unit).toList ++ ['.', 'r', 's'] := by
  rw [unitFile, String.toList_append]
  rfl

theorem unitFile_isName (unit : String) : FilePath.IsName (unitFile unit).toList := by
  have hlength : 3 ≤ (unitFile unit).toList.length := by
    rw [unitFile_toList, List.length_append]
    exact Nat.le_add_left _ _
  refine ⟨?_, ?_, ?_⟩
  · rw [unitFile_toList, List.mem_append, not_or]
    exact ⟨Text.snakeCase_noSlash unit, by decide⟩
  · rw [← Bool.not_eq_true]
    intro h
    simp only [FilePath.isFiller, Bool.or_eq_true, beq_iff_eq] at h
    rcases h with h | h <;> rw [h] at hlength <;> exact absurd hlength (by decide)
  · intro h
    rw [h] at hlength
    exact absurd hlength (by decide)

theorem unitFile_eq {a b : String} :
    unitFile a = unitFile b ↔ Text.snakeCase a = Text.snakeCase b := by
  rw [← String.toList_inj, unitFile_toList, unitFile_toList, List.append_left_inj,
    String.toList_inj]

/-- Units have the same path when their directories are the same and their names do not differ in
snake case. -/
theorem same_unitPath (root : FilePath) (package package' unit unit' : String) :
    (root.join (unitPath package unit)).same (root.join (unitPath package' unit')) ↔
      (root.join (unitDirectory package)).same (root.join (unitDirectory package')) ∧
        Text.snakeCase unit = Text.snakeCase unit' := by
  rw [unitPath, unitPath,
    FilePath.same_join_join_name (unitFile_isName unit) (unitFile_isName unit'), unitFile_eq]

/-- Where modules are called as directories can be, packages with the same modules have the same
directory, and only those. -/
theorem same_unitDirectory (root : FilePath) {package package' : String}
    (h : ∀ s ∈ unitModules package, FilePath.IsName s.toList)
    (h' : ∀ s ∈ unitModules package', FilePath.IsName s.toList) :
    (root.join (unitDirectory package)).same (root.join (unitDirectory package')) ↔
      unitModules package = unitModules package' := by
  rw [FilePath.same_iff, unitDirectory, unitDirectory, FilePath.components_join_names root h,
    FilePath.components_join_names root h', List.append_right_inj]
  exact List.map_inj_right fun _ _ => Component.normal.inj

section

variable {α : Type} {p q : FilePath} {v : α} {entries : List (FilePath × α)}

theorem findByPath_insert_self : findByPath p (insertByPath p v entries) = some v := by
  unfold findByPath
  induction entries with
  | nil => simp [insertByPath, FilePath.same]
  | cons entry entries ih =>
    rw [insertByPath]
    split
    · simp [FilePath.same]
    · rename_i hsame
      have hkey : entry.1.same p := FilePath.same_symm (FilePath.compare_eq.1 hsame)
      simp [hkey]
    · rename_i hother
      have hkey : entry.1.same p = false := by
        rw [← Bool.not_eq_true]
        intro hkey
        rw [FilePath.compare_eq.2 (FilePath.same_symm hkey)] at hother
        cases hother
      rw [List.find?_cons_of_neg (by simp [hkey])]
      exact ih

theorem findByPath_insert_other (h : ¬ q.same p) :
    findByPath q (insertByPath p v entries) = findByPath q entries := by
  have hpq : p.same q = false := by
    rw [← Bool.not_eq_true]
    exact fun hpq => h (FilePath.same_symm hpq)
  unfold findByPath
  induction entries with
  | nil => simp [insertByPath, hpq]
  | cons entry entries ih =>
    rw [insertByPath]
    split
    · rw [List.find?_cons_of_neg (by simp [hpq])]
    · rename_i hsame
      have hkey : entry.1.same q = false := by
        rw [← hpq, FilePath.same, FilePath.same, FilePath.same_iff.1 (FilePath.compare_eq.1 hsame)]
      rw [List.find?_cons_of_neg (by simp [hkey]), List.find?_cons_of_neg (by simp [hkey])]
    · by_cases hkey : entry.1.same q
      · rw [List.find?_cons_of_pos (by exact hkey), List.find?_cons_of_pos (by exact hkey)]
      · rw [List.find?_cons_of_neg (by exact hkey), List.find?_cons_of_neg (by exact hkey)]
        exact ih

theorem mem_of_findByPath (h : findByPath p entries = some v) : v ∈ entries.map (·.2) := by
  obtain ⟨entry, hentry, rfl⟩ := Option.map_eq_some_iff.1 h
  exact List.mem_map_of_mem (List.mem_of_find?_eq_some hentry)

end

end WrapperGen
