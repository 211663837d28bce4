import Mathlib.Data.List.Chain
import WrapperGen.Proofs.Files.Relative
/-!
# Directories above a path

The directories above a path are reached by taking off its last component, again and again.

* `parent?_components`: what is taken off is not the root, and the rest is kept.
* `rises_iff`: this leads upwards exactly when a name is taken off. Without its `..` a path leads
  back down, and without its `.` where it led before.
* `ancestors_upwards_iff`: when each directory of the search is above the one before it.
-/

namespace WrapperGen.Files

namespace FilePath

variable {p q : FilePath}

/-! ## Components of the directory -/

theorem leading_joinParts {part : List Char} (h : part ≠ []) (parts : List (List Char)) :
    leading (joinParts (part :: parts)) = leading part := by
  rw [joinParts_cons]
  cases parts with
  | nil => rw [List.flatMap_nil, List.append_nil]
  | cons next parts => exact leading_append _ h

/-- The first parts of a path, behind its head, begin as the path does. -/
theorem leading_head_append {ps : List (List Char)} (hps : ps <+: p.split.2) :
    leading (p.split.1 ++ joinParts ps) = leading p.text.toList := by
  have hleading := p.headComponent_split
  have hc := p.split_cases
  rw [← hleading]
  generalize p.split = s at hc hps hleading ⊢
  cases hc with
  | empty | current =>
    obtain rfl := List.prefix_nil.1 hps
    rfl
  | root => rfl
  | below =>
    rw [partsOf_slash] at hps
    cases ps with
    | nil => rfl
    | cons part ps =>
      obtain ⟨rfl, -⟩ := List.cons_prefix_cons.1 hps
      rw [joinParts_cons]
      cases ps <;> rfl
  | other hne hrelative =>
    cases ps with
    | nil => rfl
    | cons part ps =>
      obtain ⟨rest, hrest⟩ := hps
      have htext : joinParts (part :: (ps ++ rest)) = p.text.toList :=
        (congrArg joinParts hrest).trans (joinParts_partsOf _)
      have hpart : part ≠ [] := by
        rintro rfl
        rw [joinParts_cons] at htext
        cases hparts : ps ++ rest with
        | nil => exact hne (by rw [← htext, hparts]; rfl)
        | cons next parts => exact hrelative (by rw [← htext, hparts]; rfl)
      rw [List.nil_append, hleading, ← htext, leading_joinParts hpart, leading_joinParts hpart]

theorem bodyOf_steps (p : FilePath) :
    bodyOf p.text.toList = p.steps.map fun s => partComponent s.toList := by
  simp [bodyOf, steps, Function.comp_def]

theorem trimEnd_eq_nil {parts : List (List Char)} :
    trimEnd parts = [] ↔ parts.filter (!isFiller ·) = [] := by
  rw [← filter_trimEnd]
  refine ⟨fun h => by rw [h]; rfl, fun h => ?_⟩
  rcases List.eq_nil_or_concat (trimEnd parts) with hnil | ⟨init, last, hinit⟩
  · exact hnil
  · have hlast : isFiller last = false := trimEnd_getLast (by rw [hinit]; simp)
    simp [hinit, hlast] at h

/-- The directory of a path begins where the path does. Its components are those of the path but
the last, which is not the root. -/
theorem parent?_components (h : p.parent? = some q) :
    q.isAbsolute = p.isAbsolute ∧ ∃ c, c ≠ .root ∧ p.components = q.components ++ [c] := by
  by_cases hsteps : p.steps = []
  · -- Only the component at the front is left, and it is `.`.
    have hfilter : p.split.2.filter (!isFiller ·) = [] := by simpa [steps_split] using hsteps
    unfold parent? at h
    dsimp only at h
    rw [trimEnd_eq_nil.2 hfilter] at h
    dsimp only at h
    split at h
    · rename_i hhead
      cases h
      have hleading := p.headComponent_split
      rw [beq_iff_eq.1 hhead] at hleading
      refine ⟨?_, .current, nofun, ?_⟩
      · rw [Bool.eq_iff_iff, isAbsolute_iff, isAbsolute_iff, ← hleading]
        decide
      · rw [components_eq, ← hleading, bodyOf_steps, hsteps]
        rfl
    · cases h
  · obtain ⟨last, hq⟩ := parent?_some h hsteps
    refine ⟨hq.isAbsolute, partComponent last.toList, ?_, ?_⟩
    · unfold partComponent
      split <;> nofun
    · have hleading : leading q.text.toList = leading p.text.toList := by
        unfold parent? at h
        dsimp only at h
        split at h
        · rename_i htrim
          refine absurd ?_ hsteps
          rw [steps_split, trimEnd_eq_nil.1 htrim]
          rfl
        · cases h
          rw [String.toList_ofList]
          refine leading_head_append ((prefix_of_trimEnd _).trans ?_)
          exact (List.dropLast_prefix _).trans (prefix_of_trimEnd _)
      rw [components_eq, components_eq, hleading, bodyOf_steps, bodyOf_steps, hq.steps,
        List.map_append, List.append_assoc]
      rfl

/-- Only the root and the empty path have no directory. -/
theorem components_of_parent?_none (h : p.parent? = none) : ∀ c ∈ p.components, c = .root := by
  intro c hc
  rw [components_eq, bodyOf_steps, parent?_none h, List.map_nil, List.append_nil,
    ← headComponent_split] at hc
  have hfilter : trimEnd p.split.2 = [] := by
    rw [trimEnd_eq_nil, ← List.map_eq_nil_iff, ← steps_split, parent?_none h]
  unfold parent? at h
  dsimp only at h
  rw [hfilter] at h
  dsimp only at h
  split at h
  · cases h
  · unfold headComponent at hc
    split at hc
    · exact List.mem_singleton.1 hc
    · simp_all
    · cases hc

end FilePath

/-! ## Directories above -/

/-- The directory of `q` is strictly above that of `p`. -/
def Rises (workingDirectory : Place) (p q : FilePath) : Prop :=
  lexicalPlace workingDirectory q <+: lexicalPlace workingDirectory p ∧
    lexicalPlace workingDirectory q ≠ lexicalPlace workingDirectory p

/-- Each directory is strictly above the one before it, and all are the first or above it. -/
structure LeadsUpwards (workingDirectory : Place) (ps : List FilePath) : Prop where
  rises : ps.IsChain (Rises workingDirectory)
  within : ∀ p ∈ ps.head?, ∀ q ∈ ps, q = p ∨ Rises workingDirectory p q

section

variable {workingDirectory : Place} {p q r : FilePath} {c : Component}

theorem Rises.trans (h : Rises workingDirectory p q) (h' : Rises workingDirectory q r) :
    Rises workingDirectory p r := by
  refine ⟨h'.1.trans h.1, fun heq => h.2 (h.1.eq_of_length_le ?_)⟩
  rw [← heq]
  exact h'.1.length_le

instance : Trans (Rises workingDirectory) (Rises workingDirectory) (Rises workingDirectory) :=
  ⟨Rises.trans⟩

theorem leadsUpwards_iff {ps : List FilePath} :
    LeadsUpwards workingDirectory ps ↔ ps.IsChain (Rises workingDirectory) := by
  refine ⟨LeadsUpwards.rises, fun h => ⟨h, fun p hp q hq => ?_⟩⟩
  obtain ⟨ps, rfl⟩ := List.head?_eq_some_iff.1 hp
  rcases List.mem_cons.1 hq with heq | hq
  · exact .inl heq
  · exact .inr (h.rel_cons hq)

instance (workingDirectory : Place) : DecidableRel (Rises workingDirectory) :=
  fun _ _ => inferInstanceAs (Decidable (_ ∧ _))

instance (workingDirectory : Place) (ps : List FilePath) :
    Decidable (LeadsUpwards workingDirectory ps) :=
  decidable_of_iff _ leadsUpwards_iff.symm

theorem lexicalPlace_concat (habsolute : q.isAbsolute = p.isAbsolute)
    (hc : p.components = q.components ++ [c]) :
    lexicalPlace workingDirectory p = c.enter (lexicalPlace workingDirectory q) := by
  rw [lexicalPlace, hc, List.foldl_append, ← habsolute]
  rfl

/-- Without its last component a path leads upwards exactly when that was a name. -/
theorem rises_iff (habsolute : q.isAbsolute = p.isAbsolute)
    (hc : p.components = q.components ++ [c]) (hroot : c ≠ .root) :
    Rises workingDirectory p q ↔ c ≠ .current ∧ c ≠ .parent := by
  rw [Rises, lexicalPlace_concat habsolute hc]
  generalize lexicalPlace workingDirectory q = here
  cases c with
  | root => exact absurd rfl hroot
  | current => simp [Component.enter]
  | normal name => simp [Component.enter]
  | parent =>
    have hback : here <+: here.dropLast → here = here.dropLast := fun h =>
      h.eq_of_length_le here.dropLast_prefix.length_le
    simpa [Component.enter] using hback

end

/-! ## The search -/

theorem length_ancestors_le (p : FilePath) (n : Nat) : (p.ancestors n).length ≤ n := by
  induction n generalizing p with
  | zero => exact Nat.le_refl 0
  | succ n ih =>
    rw [FilePath.ancestors, List.length_cons]
    cases p.parent? with
    | none => exact Nat.succ_le_succ (Nat.zero_le n)
    | some q => exact Nat.succ_le_succ (ih q)

theorem isChain_ancestors_iff (workingDirectory : Place) (p : FilePath) (n : Nat) :
    (p.ancestors n).IsChain (Rises workingDirectory) ↔
      ∀ c ∈ p.components.reverse.take (n - 1), c ≠ .current ∧ c ≠ .parent := by
  induction n generalizing p with
  | zero => simp [FilePath.ancestors]
  | succ n ih =>
    rw [FilePath.ancestors, Nat.add_sub_cancel]
    cases h : p.parent? with
    | none =>
      refine ⟨fun _ c hc => ?_, fun _ => .singleton p⟩
      rw [FilePath.components_of_parent?_none h c (List.mem_reverse.1 (List.mem_of_mem_take hc))]
      exact ⟨nofun, nofun⟩
    | some q =>
      obtain ⟨habsolute, c, hroot, hc⟩ := FilePath.parent?_components h
      -- At depth one the directory is not asked for, so the last component may be anything.
      cases n with
      | zero => simp [FilePath.ancestors]
      | succ n =>
        have hq : q.ancestors (n + 1) = q :: (q.ancestors (n + 1)).tail := rfl
        have hlast : p.components.reverse.take (n + 1) = c :: q.components.reverse.take n := by
          rw [hc, List.reverse_append]
          rfl
        dsimp only
        rw [hq, List.isChain_cons_cons, ← hq, ih q, rises_iff habsolute hc hroot, hlast,
          List.forall_mem_cons, Nat.add_sub_cancel]

/-- **The search for settings looks upwards past names only.** It begins with the path itself and
goes on to at most as many directories as are asked for. Wherever relative paths start, each
directory is strictly above the one before it, and at or above the first, exactly when no `.` or
`..` is among the components that are taken off. -/
theorem ancestors_upwards_iff (workingDirectory : Place) (p : FilePath) (n : Nat) :
    (p.ancestors n).head? = (if n = 0 then none else some p) ∧ (p.ancestors n).length ≤ n ∧
      (LeadsUpwards workingDirectory (p.ancestors n) ↔
        ∀ c ∈ p.components.reverse.take (n - 1), c ≠ .current ∧ c ≠ .parent) := by
  refine ⟨?_, length_ancestors_le p n, ?_⟩
  · cases n <;> rfl
  · rw [leadsUpwards_iff]
    exact isChain_ancestors_iff workingDirectory p n

/-- The root, spelled as the directory that holds `a`: the search goes down into `a`. -/
theorem search_descends :
    FilePath.ancestors ⟨"/a/.."⟩ 10 = [⟨"/a/.."⟩, ⟨"/a"⟩, ⟨"/"⟩] ∧
      lexicalPlace [] ⟨"/a/.."⟩ = [] ∧ lexicalPlace [] ⟨"/a"⟩ = ["a"] ∧
      ¬ LeadsUpwards [] (FilePath.ancestors ⟨"/a/.."⟩ 10) := by
  decide +kernel

end WrapperGen.Files
