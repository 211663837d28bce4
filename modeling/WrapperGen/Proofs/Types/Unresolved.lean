import WrapperGen.Service.Validate
/-!
# The names that validation collects

The names that a type, and those that the operations of a trait, fail to resolve: which they are,
without the order and the repetitions that the collection takes care of.
-/

namespace WrapperGen

open Source

namespace Resolver

theorem mem_addNew {known more : List String} {n : String} :
    n ∈ addNew known more ↔ n ∈ known ∨ n ∈ more := by
  induction more generalizing known with
  | nil => simp [addNew]
  | cons m more ih =>
    have hstep : addNew known (m :: more) =
        addNew (if known.contains m then known else known ++ [m]) more := rfl
    rw [hstep, ih, List.mem_cons]
    by_cases hm : m ∈ known
    · rw [if_pos (List.contains_iff_mem.2 hm)]
      constructor
      · exact Or.imp_right .inr
      · rintro (hn | rfl | hn)
        · exact .inl hn
        · exact .inl hm
        · exact .inr hn
    · rw [if_neg (mt List.contains_iff_mem.1 hm), List.mem_append, List.mem_singleton, or_assoc]

variable {r : Resolver} {s : Scope} {t : Ty} {n : String}

theorem mem_unresolvedNames :
    n ∈ r.unresolvedNames s t ↔ ∃ p ∈ t.paths, r.unresolvedPath? s p = some n := by
  simp [unresolvedNames, mem_addNew]

/-- What is collected over a list is what its members give. -/
theorem mem_foldl_addNew {α : Type} {names : α → List String} {xs : List α}
    {known : List String} :
    n ∈ xs.foldl (fun known x => addNew known (names x)) known ↔
      n ∈ known ∨ ∃ x ∈ xs, n ∈ names x := by
  induction xs generalizing known with
  | nil => simp
  | cons x xs ih => simp [ih, mem_addNew, or_assoc]

end Resolver

/-- The scope of the types of a method. -/
def Declared.methodScope (d : Declared) (m : Method) : Scope :=
  (Scope.withGenerics ⟨d.packageName, []⟩ d.item.generics).withGenerics m.signature.generics

theorem mem_unresolvedIn {c : Config} {r : Resolver} {d : Declared} {n : String} :
    n ∈ unresolvedIn c r d ↔ ∃ m ∈ qualifyingMethods c d.item, ∃ t ∈ m.signature.types,
      n ∈ r.unresolvedNames (d.methodScope m) t := by
  have hmethods : ∀ (ms : List Method) (known : List String),
      n ∈ ms.foldl (fun known m => m.signature.types.foldl (fun known t =>
        Resolver.addNew known (r.unresolvedNames (d.methodScope m) t)) known) known ↔
      n ∈ known ∨ ∃ m ∈ ms, ∃ t ∈ m.signature.types,
        n ∈ r.unresolvedNames (d.methodScope m) t := by
    intro ms
    induction ms with
    | nil => simp
    | cons m ms ih =>
      intro known
      rw [List.foldl_cons, ih, Resolver.mem_foldl_addNew]
      simp [or_assoc]
  exact (hmethods (qualifyingMethods c d.item) []).trans (by simp)

end WrapperGen
