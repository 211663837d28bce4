import WrapperGen.Service.Process
/-!
# The unit of a trait

`unitOf_ok`: a unit carries the names and the origin of the trait it was made for. `unitOf_failure`:
if there is none, the failure says for which trait.
-/

namespace WrapperGen

open Source

/-- The unit `u` belongs to the marked trait `d`. -/
structure GeneratedUnit.BelongsTo (u : GeneratedUnit) (c : Config) (d : Declared) : Prop where
  qualifiedName : u.qualifiedName = d.qualifiedName
  packageName : u.packageName = d.packageName
  unitName : u.unitName = c.unitName d.simpleName
  origin : u.origin = d.origin

theorem classifyInterface_ok {c : Config} {r : Resolver} {d : Declared} {i : Interface}
    (h : classifyInterface c r d = .ok i) :
    i.qualifiedName = d.qualifiedName ∧ i.packageName = d.packageName ∧
      i.simpleName = d.simpleName ∧ i.origin = d.origin := by
  unfold classifyInterface at h
  dsimp only at h
  split at h
  · cases h
  · split at h
    · cases h
    · simp only [bind, Except.bind, pure, Except.pure] at h
      split at h
      · cases h
      · cases h
        exact ⟨rfl, rfl, rfl, rfl⟩

theorem toOption_eq_some {ε α : Type} {x : Except ε α} {a : α} :
    x.toOption = some a ↔ x = .ok a := by
  cases x <;> simp [Except.toOption]

theorem mapM_error {ε α β : Type} {f : α → Except ε β} {xs : List α} {e : ε}
    (h : xs.mapM f = .error e) : ∃ x ∈ xs, f x = .error e := by
  induction xs with
  | nil => cases h
  | cons x xs ih =>
    rw [List.mapM_cons] at h
    cases hx : f x with
    | error e' =>
      rw [hx] at h
      cases h
      exact ⟨x, .head _, hx⟩
    | ok y =>
      rw [hx] at h
      cases hxs : xs.mapM f with
      | ok ys => simp [bind, Except.bind, pure, Except.pure, hxs] at h
      | error e' =>
        simp only [bind, Except.bind, hxs] at h
        cases h
        obtain ⟨z, hz, hfz⟩ := ih hxs
        exact ⟨z, .tail _ hz, hfz⟩

/-- Why a trait cannot be classified: it has parameters, it cannot be shared, or one of its methods
is unfit. -/
theorem classifyInterface_error {c : Config} {r : Resolver} {d : Declared} {f : Failure}
    (h : classifyInterface c r d = .error f) : ∃ reason, f = .aborted d.qualifiedName reason ∧
      (reason = "generic service traits cannot be reached through a service handle" ∨
        handleProblem? d.item = some reason ∨
        ∃ m ∈ qualifyingMethods c d.item,
          classifyOperation c r ⟨d.packageName, []⟩ m = .error reason) := by
  unfold classifyInterface at h
  dsimp only at h
  split at h
  · cases h
    exact ⟨_, rfl, .inl rfl⟩
  · split at h
    · rename_i hproblem
      cases h
      exact ⟨_, rfl, .inr (.inl hproblem)⟩
    · simp only [bind, Except.bind, pure, Except.pure] at h
      split at h
      · rename_i hm
        cases h
        obtain ⟨m, hmem, hm⟩ := mapM_error hm
        cases ho : classifyOperation c r ⟨d.packageName, []⟩ m with
        | ok o => rw [ho] at hm; cases hm
        | error reason =>
          rw [ho] at hm
          cases hm
          exact ⟨reason, rfl, .inr (.inr ⟨m, hmem, ho⟩)⟩
      · cases h

/-- What is said of a unit that does not read as a file. -/
def unreadableText : String := "rendered unit does not parse: "

namespace Emit

/-- A unit that was emitted has proper names, and is what its interface says. -/
theorem emit_ok {c : Config} {i : Interface} {u : GeneratedUnit} (h : emit c i = .ok u) :
    (badName? (c.unitName i.simpleName) <|> badName? i.simpleName) = none ∧
      u.qualifiedName = i.qualifiedName ∧ u.packageName = i.packageName ∧
      u.unitName = c.unitName i.simpleName ∧ u.origin = i.origin := by
  unfold emit at h
  dsimp only at h
  split at h
  · cases h
  · rename_i hname
    refine ⟨hname, ?_⟩
    simp only [bind, Except.bind, pure, Except.pure] at h
    split at h
    · cases h
    · split at h
      · cases h
      · cases h
        exact ⟨rfl, rfl, rfl, rfl⟩

/-- Emission fails only for a unit that cannot be read back. -/
theorem emit_failure {c : Config} {i : Interface} {f : Failure}
    (h : emit c i = .error (.failure f)) :
    ∃ text, f = .aborted i.qualifiedName (unreadableText ++ text) := by
  unfold emit at h
  dsimp only at h
  split at h
  · cases h
  · simp only [bind, Except.bind, pure, Except.pure] at h
    split at h
    · cases h
      exact ⟨_, rfl⟩
    · split at h <;> cases h

end Emit

/-- A trait that cannot be classified has no unit, for the same reason. -/
theorem unitOf_of_unfit {c : Config} {r : Resolver} {d : Declared} {f : Failure}
    (h : classifyInterface c r d = .error f) : unitOf c r d = .error (.failure f) := by
  unfold unitOf
  rw [h]
  rfl

theorem unitOf_of_fit {c : Config} {r : Resolver} {d : Declared} {i : Interface}
    (h : classifyInterface c r d = .ok i) : unitOf c r d = Emit.emit c i := by
  unfold unitOf
  rw [h]
  rfl

theorem unitOf_emitted {c : Config} {r : Resolver} {d : Declared} {u : GeneratedUnit}
    (h : unitOf c r d = .ok u) :
    ∃ i, classifyInterface c r d = .ok i ∧ Emit.emit c i = .ok u := by
  cases hi : classifyInterface c r d with
  | error f =>
    rw [unitOf_of_unfit hi] at h
    cases h
  | ok i =>
    rw [unitOf_of_fit hi] at h
    exact ⟨i, rfl, h⟩

theorem unitOf_failure_cases {c : Config} {r : Resolver} {d : Declared} {f : Failure}
    (h : unitOf c r d = .error (.failure f)) : classifyInterface c r d = .error f ∨
      ∃ i, classifyInterface c r d = .ok i ∧ Emit.emit c i = .error (.failure f) := by
  cases hi : classifyInterface c r d with
  | error f' =>
    rw [unitOf_of_unfit hi] at h
    cases h
    exact .inl rfl
  | ok i =>
    rw [unitOf_of_fit hi] at h
    exact .inr ⟨i, rfl, h⟩

theorem unitOf_ok {c : Config} {r : Resolver} {d : Declared} {u : GeneratedUnit}
    (h : unitOf c r d = .ok u) : u.BelongsTo c d := by
  obtain ⟨i, hi, hemit⟩ := unitOf_emitted h
  obtain ⟨hq, hp, hs, ho⟩ := classifyInterface_ok hi
  obtain ⟨-, hq', hp', hs', ho'⟩ := Emit.emit_ok hemit
  exact ⟨hq'.trans hq, hp'.trans hp, hs'.trans (by rw [hs]), ho'.trans ho⟩

theorem unitOf_failure {c : Config} {r : Resolver} {d : Declared} {f : Failure}
    (h : unitOf c r d = .error (.failure f)) : ∃ reason, f = .aborted d.qualifiedName reason := by
  rcases unitOf_failure_cases h with hi | ⟨i, hi, hemit⟩
  · obtain ⟨reason, hf, -⟩ := classifyInterface_error hi
    exact ⟨reason, hf⟩
  · obtain ⟨text, rfl⟩ := Emit.emit_failure hemit
    exact ⟨_, by rw [(classifyInterface_ok hi).1]⟩

end WrapperGen
