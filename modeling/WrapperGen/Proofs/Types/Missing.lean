import Mathlib.Data.List.Induction
import WrapperGen.Proofs.Source.Nesting
import WrapperGen.Proofs.Types.Unresolved
/-!
# What a service waits for

Validation goes through all types of a service in order and notes every name that it cannot resolve
once. So the list of these names is complete, and its order is that of the first places where each
is written (`missing_names_exact`).
-/

namespace WrapperGen

open Source

/-! ## First occurrences -/

namespace Resolver

theorem addNew_append (known more more' : List String) :
    addNew known (more ++ more') = addNew (addNew known more) more' := List.foldl_append

theorem addNew_concat (known more : List String) (n : String) :
    addNew known (more ++ [n]) =
      if n ∈ addNew known more then addNew known more else addNew known more ++ [n] := by
  rw [addNew_append]
  simp [addNew]

/-- Names that were collected before are added as they are. -/
theorem addNew_addNew (known more : List String) :
    addNew known (addNew [] more) = addNew known more := by
  induction more using List.reverseRecOn with
  | nil => rfl
  | append_singleton more n ih =>
    rw [addNew_concat [], addNew_concat known]
    split
    · rename_i hn
      have hmem : n ∈ addNew known more := by
        rw [mem_addNew] at hn ⊢
        exact .inr (hn.resolve_left List.not_mem_nil)
      rw [ih, if_pos hmem]
    · rw [addNew_concat, ih]

theorem foldl_addNew {α : Type} (names : α → List String) (xs : List α) (known : List String) :
    xs.foldl (fun known x => addNew known (names x)) known =
      addNew known (xs.flatMap names) := by
  induction xs generalizing known with
  | nil => rfl
  | cons x xs ih => rw [List.foldl_cons, ih, List.flatMap_cons, addNew_append]

theorem addNew_nodup (names : List String) : (addNew [] names).Nodup := by
  induction names using List.reverseRecOn with
  | nil => exact .nil
  | append_singleton names n ih =>
    rw [addNew_concat]
    split
    · exact ih
    · rename_i hn
      refine List.pairwise_append.2 ⟨ih, List.pairwise_singleton _ n, fun m hm m' hm' heq => ?_⟩
      rw [heq, List.mem_singleton.1 hm'] at hm
      exact hn hm

/-- A name comes before another one if it is first written before the other is written at all. -/
theorem addNew_sorted {At : List Nat → String → Prop} {names : List String} (h : Listed At names) :
    (addNew [] names).Pairwise fun n n' => ∃ a, At a n ∧ ∀ a', At a' n' → a < a' := by
  obtain ⟨places, hmembers, hsorted, hmem⟩ := h
  suffices hpairs : (addNew [] (places.map (·.2))).Pairwise fun n n' =>
      ∃ a, (a, n) ∈ places ∧ ∀ a', (a', n') ∈ places → a < a' by
    rw [← hmembers]
    simpa only [hmem] using hpairs
  clear hmembers hmem
  induction places using List.reverseRecOn with
  | nil => exact .nil
  | append_singleton places last ih =>
    obtain ⟨hfront, -, hlast⟩ := List.pairwise_append.1 hsorted
    have hlast : ∀ p ∈ places, p.1 < last.1 := fun p hp => hlast p hp last (.head _)
    -- the last place comes after all places of the names before
    have hbefore : (addNew [] (places.map (·.2))).Pairwise fun n n' =>
        ∃ a, (a, n) ∈ places ++ [last] ∧ ∀ a', (a', n') ∈ places ++ [last] → a < a' := by
      refine (ih hfront).imp fun ⟨a, ha, hall⟩ => ⟨a, List.mem_append_left _ ha, fun a' ha' => ?_⟩
      rcases List.mem_append.1 ha' with ha' | ha'
      · exact hall a' ha'
      · rw [← List.mem_singleton.1 ha'] at hlast
        exact hlast _ ha
    rw [List.map_append, List.map_singleton, addNew_concat]
    split
    · exact hbefore
    · rename_i hnew
      refine List.pairwise_append.2 ⟨hbefore, List.pairwise_singleton _ _, ?_⟩
      rintro n hn n' hn'
      cases List.mem_singleton.1 hn'
      have hmem : ∀ {m}, m ∈ addNew [] (places.map (·.2)) ↔ ∃ a, (a, m) ∈ places := by
        simp [mem_addNew]
      obtain ⟨a, ha⟩ := hmem.1 hn
      refine ⟨a, List.mem_append_left _ ha, fun a' ha' => ?_⟩
      rcases List.mem_append.1 ha' with ha' | ha'
      · exact absurd (hmem.2 ⟨a', ha'⟩) hnew
      · rw [← List.mem_singleton.1 ha'] at hlast
        exact hlast _ ha

theorem unresolvedPath?_eq_some {r : Resolver} {s : Scope} {p : Path} {n : String} :
    r.unresolvedPath? s p = some n ↔ r.resolve s (.path p) = .unresolved n := by
  unfold unresolvedPath?
  rw [resolve]
  cases r.resolveTypePath s p <;> simp

end Resolver

/-! ## Places -/

/-- A type path is written at this place of a declaration: the number of the method, the number of
the type among those of its parameters and its result, and the address in the type. -/
def Declared.PathAt (c : Config) (d : Declared) : List Nat → Method → Path → Prop
  | i :: j :: address, m, p => (qualifyingMethods c d.item)[i]? = some m ∧
      ∃ t, m.signature.types[j]? = some t ∧ (Phrase.ty t).at? address = some (.ty (.path p))
  | _, _, _ => False

/-- A type path at this place resolves to nothing, under this name. -/
def Declared.MissingAt (c : Config) (r : Resolver) (d : Declared) (place : List Nat)
    (n : String) : Prop :=
  ∃ m p, d.PathAt c place m p ∧ r.resolve (d.methodScope m) (.path p) = .unresolved n

section

variable (c : Config) (r : Resolver) (d : Declared)

/-- The names that a method fails to resolve, each time they are written. -/
def Declared.missingIn (m : Method) : List String :=
  (m.signature.types.flatMap Ty.paths).filterMap (r.unresolvedPath? (d.methodScope m))

theorem unresolvedIn_eq : unresolvedIn c r d =
    Resolver.addNew [] ((qualifyingMethods c d.item).flatMap (d.missingIn r)) := by
  have hmethod : ∀ (known : List String) (m : Method),
      m.signature.types.foldl (fun known t =>
        Resolver.addNew known (r.unresolvedNames (d.methodScope m) t)) known =
      Resolver.addNew known (d.missingIn r m) := fun known m => by
    simp only [Resolver.unresolvedNames, Resolver.addNew_addNew]
    rw [Resolver.foldl_addNew, Declared.missingIn, List.filterMap_flatMap]
  rw [← Resolver.foldl_addNew]
  exact congrArg (fun f => (qualifyingMethods c d.item).foldl f [])
    (funext fun known => funext fun m => hmethod known m)

theorem missing_listed : Listed (d.MissingAt c r)
    ((qualifyingMethods c d.item).flatMap (d.missingIn r)) := by
  have hmethod : ∀ m, Listed (fun a n => ∃ p, Below
      (fun t a p => (Phrase.ty t).at? a = some (.ty (.path p))) 0 m.signature.types a p ∧
        r.unresolvedPath? (d.methodScope m) p = some n) (d.missingIn r m) := fun m =>
    (Listed.below (fun t _ => (Phrase.ty t).listed) 0).filterMap _
  refine (Listed.below (fun m _ => hmethod m) 0).congr fun a n => ?_
  match a with
  | [] => simp [not_below_nil, Declared.MissingAt, Declared.PathAt]
  | [i] => simp [below_address, not_below_nil, Declared.MissingAt, Declared.PathAt]
  | i :: j :: address =>
    simp only [below_address, Resolver.unresolvedPath?_eq_some, Declared.MissingAt,
      Declared.PathAt, and_assoc, exists_and_left]

/-- **Validation reports exactly the missing names.** A service waits for nothing iff no type path
in it resolves to nothing, at any depth of a type of a parameter or a result. What it waits for are
the names of such paths, each once, in the order of the places where they are first written: by the
method, by the type, from outside to inside, and else as the text goes. -/
theorem missing_names_exact :
    (unresolvedIn c r d = [] ↔ ∀ place m p, d.PathAt c place m p →
      (r.resolve (d.methodScope m) (.path p)).isResolved) ∧
    (∀ n, n ∈ unresolvedIn c r d ↔ ∃ place, d.MissingAt c r place n) ∧
    (unresolvedIn c r d).Nodup ∧
    (unresolvedIn c r d).Pairwise fun n n' => ∃ place, d.MissingAt c r place n ∧
      ∀ place', d.MissingAt c r place' n' → place < place' := by
  have hlisted := missing_listed c r d
  have hmem : ∀ n, n ∈ unresolvedIn c r d ↔ ∃ place, d.MissingAt c r place n := fun n => by
    obtain ⟨places, hmembers, -, hplaces⟩ := hlisted
    rw [unresolvedIn_eq, Resolver.mem_addNew, ← hmembers]
    simp [hplaces]
  refine ⟨?_, hmem, ?_, ?_⟩
  · rw [List.eq_nil_iff_forall_not_mem]
    constructor
    · intro hnone place m p hp
      cases hresolve : r.resolve (d.methodScope m) (.path p) with
      | unresolved n => exact absurd ((hmem n).2 ⟨place, m, p, hp, hresolve⟩) (hnone n)
      | _ => rfl
    · intro hall n hn
      obtain ⟨place, m, p, hp, hresolve⟩ := (hmem n).1 hn
      have hresolved := hall place m p hp
      rw [hresolve] at hresolved
      cases hresolved
  · rw [unresolvedIn_eq]
    exact Resolver.addNew_nodup _
  · rw [unresolvedIn_eq]
    exact Resolver.addNew_sorted hlisted

end

end WrapperGen
