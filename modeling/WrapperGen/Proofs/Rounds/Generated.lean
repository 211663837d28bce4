import WrapperGen.Proofs.Rounds.Reports
/-!
# Units that were generated

* `generatedIn`: the units of a trail with their paths; a round reports those of its history
  (`round_generated`).
* `Trail.keeps`: what holds of a host after every request when it may only be lost to some units.
-/

namespace WrapperGen

open Files

namespace Fate

/-- The unit that was generated and its path. -/
def generated? : Fate → Option (GeneratedUnit × FilePath)
  | generated u o => some (u, o.path)
  | _ => none

theorem generated?_eq_some {f : Fate} {u : GeneratedUnit} {path : FilePath} :
    f.generated? = some (u, path) ↔ ∃ o, f = .generated u o ∧ o.path = path := by
  cases f with
  | generated v o =>
    rw [generated?, Option.some.injEq, Prod.mk.injEq]
    constructor
    · rintro ⟨rfl, rfl⟩
      exact ⟨o, rfl, rfl⟩
    · rintro ⟨o', ho, rfl⟩
      obtain ⟨rfl, rfl⟩ := Fate.generated.inj ho
      exact ⟨rfl, rfl⟩
  | _ => simp [generated?]

end Fate

/-- The units that were generated, each with its path, in the order of time. -/
def generatedIn {σ : Type} (xs : List (Point σ)) : List (GeneratedUnit × FilePath) :=
  xs.filterMap (·.fate.generated?)

theorem generatedIn_cons_subset {σ : Type} {x : Point σ} {xs : List (Point σ)}
    {a : GeneratedUnit × FilePath} (ha : a ∈ generatedIn xs) : a ∈ generatedIn (x :: xs) := by
  obtain ⟨y, hy, hya⟩ := List.mem_filterMap.1 ha
  exact List.mem_filterMap.2 ⟨y, .tail _ hy, hya⟩

/-! ## Reports -/

/-- The records of a round are those of the units of its history. -/
theorem Processor.round_generated {σ : Type} (h : Host σ) {u : Universe} {retried : List String}
    {p : Processor σ} {out : RoundOutput} (hround : (p.round h u retried).2 = .ok out) :
    out.generated.map (fun g => (g.qualifiedName, g.unitName, g.path)) =
      (generatedIn (p.roundHistory h u)).map
        (fun a => (a.1.qualifiedName, a.1.unitName, a.2)) := by
  obtain ⟨-, rfl⟩ := round_ok.1 hround
  rw [RoundOutput.collect, visit, ← historyOf_visits, generatedIn, List.filterMap_map,
    List.map_filterMap, List.map_filterMap]
  congr 1
  funext x
  rw [Function.comp_apply, Visit.record?, Point.fate]
  cases x.visit.fate <;> rfl

/-! ## Along a trail -/

/-- At a point that generated a unit, the host accepted it. -/
theorem Point.generated_write {σ : Type} {h : Host σ} {p : Processor σ} {r : Resolver}
    {d : Declared} {u : GeneratedUnit} {o : WriteOutcome}
    (hfate : (Point.of h p r d).fate = .generated u o) :
    ∃ w e, h.write u.toText p.world = (w, .ok o) ∧
      (Point.of h p r d).after.world = h.log e w := by
  have hc := p.handle_cases h r d
  unfold Point.of Point.fate at *
  generalize p.handle h r d = y at hc hfate ⊢
  cases hc with
  | generated _ _ accepted =>
    cases hfate
    exact ⟨_, _, accepted, rfl⟩
  | _ => cases hfate

section

variable {σ : Type} {h : Host σ} {K : σ → Prop} (clash : UnitText → Prop)

/-- What logging, refused units and the units that do not clash with it keep is kept unless a unit
that clashes is generated. -/
theorem Trail.keeps (hlog : ∀ e w, K w → K (h.log e w))
    (hrefused : ∀ u w w' f, K w → h.write u w = (w', .error f) → K w')
    (haccepted : ∀ u w w' o, K w → ¬ clash u → h.write u w = (w', .ok o) → K w')
    {p q : Processor σ} {xs : List (Point σ)} (ht : Trail h p xs q)
    (hxs : ∀ a ∈ generatedIn xs, ¬ clash a.1.toText) (hp : K p.world) : K q.world := by
  induction ht with
  | nil => exact hp
  | log level message _ ih => exact ih hxs (hlog _ _ hp)
  | @visit p q xs r d _ ih =>
    refine ih (fun a ha => hxs a (generatedIn_cons_subset ha)) ?_
    have hc := p.handle_cases h r d
    have hx : ∀ u o, (p.handle h r d).2 = .generated u o → ¬ clash u.toText := fun u o hfate =>
      hxs (u, o.path) (List.mem_filterMap.2 ⟨_, .head _, Fate.generated?_eq_some.2 ⟨o, hfate, rfl⟩⟩)
    generalize p.handle h r d = y at hc hx ⊢
    cases hc with
    | skipped => exact hp
    | panicked => exact hp
    | deferred => exact hlog _ _ hp
    | aborted => exact hlog _ _ hp
    | unwritten _ _ refused => exact hlog _ _ (hrefused _ _ _ _ hp refused)
    | generated _ _ accepted => exact hlog _ _ (haccepted _ _ _ _ hp (hx _ _ rfl) accepted)

end

/-- A unit of the list was accepted at a point of the trail, and the units after it are those of
the points after it. -/
theorem Trail.split_generated {σ : Type} {h : Host σ} {p q : Processor σ} {xs : List (Point σ)}
    (ht : Trail h p xs q) {earlier later : List (GeneratedUnit × FilePath)} {u : GeneratedUnit}
    {path : FilePath} (hxs : generatedIn xs = earlier ++ (u, path) :: later) :
    ∃ (before : List (Point σ)) (x : Point σ) (w : σ) (e : Entry) (o : WriteOutcome)
      (after : List (Point σ)), h.write u.toText x.before.world = (w, .ok o) ∧ o.path = path ∧
      x.after.world = h.log e w ∧ Trail h p before x.before ∧ Trail h x.after after q ∧
      later = generatedIn after := by
  obtain ⟨xs₁, xs₂, rfl, -, h₂⟩ := List.filterMap_eq_append_iff.1 hxs
  obtain ⟨skipped, x, after, rfl, -, hx, hafter⟩ := List.filterMap_eq_cons_iff.1 h₂
  obtain ⟨o, hfate, hpath⟩ := Fate.generated?_eq_some.1 hx
  rw [← List.append_assoc] at ht
  obtain ⟨r, d, hof, hbefore, hrest⟩ := ht.split
  rw [hof] at hfate
  obtain ⟨w, e, hwrite, hworld⟩ := Point.generated_write hfate
  rw [← hof] at hworld
  exact ⟨_, x, w, e, o, after, hwrite, hpath, hworld, hbefore, hrest, hafter.symm⟩

end WrapperGen
