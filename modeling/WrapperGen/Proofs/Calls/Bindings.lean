import Mathlib.Data.Finset.Card
import Mathlib.Data.List.Induction
import WrapperGen.Calls.Registry
/-!
# What a registry holds

A registry keeps its services and their names apart. Binding a service keeps both in step
(`InStep.bind`), so after any sequence of bindings both follow from the sequence (`Records`,
`ofBindings_records`): the last binding of a name counts, and its first one gives the name its
place.
-/

namespace WrapperGen.Calls.Registry

variable {S : Type} {r : Registry S} {name other : String} {s : S}

/-! ## One binding -/

theorem find?_bindIn (xs : List (String × S)) (name other : String) (s : S) :
    (bindIn name s xs).find? (·.1 = other) =
      if name = other then some (name, s) else xs.find? (·.1 = other) := by
  induction xs with
  | nil => by_cases h : name = other <;> simp [bindIn, h]
  | cons x xs ih =>
    obtain ⟨n, old⟩ := x
    rw [bindIn]
    split
    · rename_i hn
      subst hn
      by_cases h : n = other <;> simp [h]
    · rename_i hn
      rw [List.find?_cons, List.find?_cons, ih]
      by_cases h : n = other
      · have hname : name ≠ other := fun hname => hn (h.trans hname.symm)
        simp [h, hname]
      · simp [h]

theorem find?_eq_none {xs : List (String × S)} :
    xs.find? (·.1 = name) = none ↔ name ∉ xs.map (·.1) := by
  rw [List.find?_eq_none, List.mem_map]
  constructor
  · rintro h ⟨x, hx, rfl⟩
    exact h x hx (by simp)
  · intro h x hx hname
    exact h ⟨x, hx, by simpa using hname⟩

theorem get?_bind (r : Registry S) (name other : String) (s : S) :
    (r.bind name s).get? other = if name = other then some s else r.get? other := by
  rw [get?, bind, find?_bindIn]
  split <;> rfl

theorem get?_eq_none : r.get? name = none ↔ name ∉ r.services.map (·.1) := by
  rw [get?, Option.map_eq_none_iff, find?_eq_none]

theorem keys_bindIn (xs : List (String × S)) (name : String) (s : S) :
    (bindIn name s xs).map (·.1) =
      if name ∈ xs.map (·.1) then xs.map (·.1) else xs.map (·.1) ++ [name] := by
  induction xs with
  | nil => rfl
  | cons x xs ih =>
    obtain ⟨n, old⟩ := x
    rw [bindIn]
    split
    · rename_i hn
      simp [hn]
    · rename_i hn
      have hne : name ≠ n := Ne.symm hn
      rw [List.map_cons, ih]
      by_cases h : name ∈ xs.map (·.1) <;> simp [h, hne]

/-- The recorded names are those of the services. -/
def InStep (r : Registry S) : Prop := r.services.map (·.1) = r.names

theorem InStep.bind (h : r.InStep) (name : String) (s : S) : (r.bind name s).InStep := by
  have hnone : (r.get? name).isNone = decide (name ∉ r.names) := by
    rw [Bool.eq_iff_iff, Option.isNone_iff_eq_none, get?_eq_none, h, decide_eq_true_iff]
  rw [InStep, Registry.bind, keys_bindIn, hnone, h]
  by_cases hname : name ∈ r.names <;> simp [hname]

theorem names_bind (h : r.InStep) (name : String) (s : S) :
    (r.bind name s).names = if name ∈ r.names then r.names else r.names ++ [name] := by
  rw [← h.bind, Registry.bind, keys_bindIn, h]

/-! ## Sequences of bindings -/

/-- The registry after some bindings, the first one first. -/
def ofBindings (bs : List (String × S)) : Registry S := bs.foldl (fun r b => r.bind b.1 b.2) empty

theorem ofBindings_concat (bs : List (String × S)) (b : String × S) :
    ofBindings (bs ++ [b]) = (ofBindings bs).bind b.1 b.2 := by
  rw [ofBindings, List.foldl_append]
  rfl

theorem ofBindings_inStep (bs : List (String × S)) : (ofBindings bs).InStep := by
  induction bs using List.reverseRecOn with
  | nil => rfl
  | append_singleton bs b ih =>
    rw [ofBindings_concat]
    exact ih.bind b.1 b.2

theorem get?_ofBindings (bs : List (String × S)) (name : String) :
    (ofBindings bs).get? name = (bs.reverse.find? (·.1 = name)).map (·.2) := by
  induction bs using List.reverseRecOn with
  | nil => rfl
  | append_singleton bs b ih =>
    rw [ofBindings_concat, get?_bind, ih, List.reverse_append]
    by_cases h : b.1 = name <;> simp [h]

theorem names_ofBindings (bs : List (String × S)) :
    (ofBindings bs).names = (bs.map (·.1)).eraseDups := by
  induction bs using List.reverseRecOn with
  | nil => rfl
  | append_singleton bs b ih =>
    rw [ofBindings_concat, names_bind (ofBindings_inStep bs), ih, List.map_append,
      List.eraseDups_append, List.map_singleton]
    split <;> rename_i h <;> rw [List.mem_eraseDups] at h
    · simp [List.removeAll, h]
    · simp [List.removeAll, h, List.eraseDups_cons]

theorem names_nodup (bs : List (String × S)) : (ofBindings bs).names.Nodup := by
  induction bs using List.reverseRecOn with
  | nil => exact List.nodup_nil
  | append_singleton bs b ih =>
    rw [ofBindings_concat, names_bind (ofBindings_inStep bs)]
    split
    · exact ih
    · rename_i h
      exact List.nodup_append_comm.1 (List.nodup_cons.2 ⟨h, ih⟩)

/-- What is in a registry after some bindings. -/
structure Records (bs : List (String × S)) (r : Registry S) : Prop where
  /-- The service is that of the last binding. -/
  last : ∀ name s, r.get? name = some s ↔
    ∃ earlier later, bs = earlier ++ (name, s) :: later ∧ name ∉ later.map (·.1)
  unbound : ∀ name, r.get? name = none ↔ name ∉ bs.map (·.1)
  /-- Each name once, by its first binding. -/
  names : r.names = (bs.map (·.1)).eraseDups
  nodup : r.names.Nodup
  size : r.size = (bs.map (·.1)).toFinset.card

theorem last_ofBindings (bs : List (String × S)) (name : String) (s : S) :
    (ofBindings bs).get? name = some s ↔
      ∃ earlier later, bs = earlier ++ (name, s) :: later ∧ name ∉ later.map (·.1) := by
  rw [get?_ofBindings, Option.map_eq_some_iff]
  constructor
  · rintro ⟨⟨n, s'⟩, hfind, rfl⟩
    obtain ⟨hn, later, earlier, hsplit, hlater⟩ := List.find?_eq_some_iff_append.1 hfind
    obtain rfl : n = name := of_decide_eq_true hn
    refine ⟨earlier.reverse, later.reverse, ?_, ?_⟩
    · rw [← List.reverse_reverse bs, hsplit]
      simp
    · rw [← find?_eq_none, List.find?_eq_none]
      exact fun b hb => by simpa using hlater b (List.mem_reverse.1 hb)
  · rintro ⟨earlier, later, rfl, hlater⟩
    have hnone : later.reverse.find? (·.1 = name) = none := by
      rwa [find?_eq_none, List.map_reverse, List.mem_reverse]
    refine ⟨(name, s), ?_, rfl⟩
    simp [hnone]

theorem ofBindings_records (bs : List (String × S)) : (ofBindings bs).Records bs where
  last := last_ofBindings bs
  unbound name := by
    rw [get?_ofBindings, Option.map_eq_none_iff, find?_eq_none, List.map_reverse, List.mem_reverse]
  names := names_ofBindings bs
  nodup := names_nodup bs
  size := by
    have hnames : (bs.map (·.1)).toFinset = (ofBindings bs).names.toFinset := by
      ext n
      rw [names_ofBindings]
      simp
    rw [hnames, List.toFinset_card_of_nodup (names_nodup bs), ← ofBindings_inStep bs,
      List.length_map]
    rfl

end WrapperGen.Calls.Registry
