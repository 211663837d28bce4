import WrapperGen.Proofs.Rounds.Trail
/-!
# The life of a service

`service_lifecycle`: whatever rounds and runs a processor is asked for, over whatever universes, a
service is deferred any number of times, then taken up at most once, and skipped from then on; at
every point the tracker holds the services that were taken up.

`Point.of_step` says what a visit does to the tracker and to the fates so far. Both statements on
trails, `Trail.mem_processed` and `Trail.fates_lifecycle`, follow from it by induction.
-/

namespace WrapperGen

/-! ## Fates -/

namespace Fate

/-- Whether the service was taken up. -/
def isSettled : Fate → Bool
  | aborted _ | unwritten _ | generated .. | panicked _ => true
  | skipped | deferred _ => false

/-- What is reported of a service is reported under its name. -/
def IsOf (name : String) : Fate → Prop
  | generated u _ => u.qualifiedName = name
  | aborted f => ∃ reason, f = .aborted name reason
  | _ => True

end Fate

/-- The fates of one service in the order of time. -/
inductive Lifecycle : List Fate → Prop
  | idle : Lifecycle []
  | wait {names : List String} {fs : List Fate} : Lifecycle fs → Lifecycle (.deferred names :: fs)
  | settle {f : Fate} {fs : List Fate} :
      f.isSettled → (∀ g ∈ fs, g = .skipped) → Lifecycle (f :: fs)

section
variable {σ : Type}

/-- The names that were taken up. -/
def settledNames (xs : List (Point σ)) : List String :=
  (xs.filter (·.fate.isSettled)).map (·.name)

/-- The fates of one service. -/
def fatesOf (name : String) (xs : List (Point σ)) : List Fate :=
  (xs.filter (·.name = name)).map (·.fate)

theorem fatesOf_cons_self {x : Point σ} {xs : List (Point σ)} {name : String} (hx : x.name = name) :
    fatesOf name (x :: xs) = x.fate :: fatesOf name xs := by
  rw [fatesOf, List.filter_cons_of_pos (by simpa using hx), List.map_cons]
  rfl

theorem fatesOf_cons_other {x : Point σ} {xs : List (Point σ)} {name : String}
    (hx : x.name ≠ name) : fatesOf name (x :: xs) = fatesOf name xs := by
  rw [fatesOf, List.filter_cons_of_neg (by simpa using hx)]
  rfl

theorem settledNames_cons {x : Point σ} {xs : List (Point σ)} {n : String} :
    n ∈ settledNames (x :: xs) ↔ (x.fate.isSettled ∧ n = x.name) ∨ n ∈ settledNames xs := by
  simp only [settledNames, List.filter_cons]
  cases x.fate.isSettled <;> simp

end

/-! ## One visit -/

namespace Point

variable {σ : Type} (h : Host σ)

/-- What a visit does to the tracker. -/
inductive Step (x : Point σ) : Prop
  | skip (known : x.name ∈ x.before.tracker.processed) (fate : x.fate = .skipped)
      (same : x.after.tracker = x.before.tracker)
  | wait (new : x.name ∉ x.before.tracker.processed) (names : List String)
      (fate : x.fate = .deferred names) (same : x.after.tracker = x.before.tracker)
  | settle (new : x.name ∉ x.before.tracker.processed) (settled : x.fate.isSettled)
      (added : x.after.tracker.processed = x.name :: x.before.tracker.processed)

theorem of_step (p : Processor σ) (r : Resolver) (d : Declared) : (Point.of h p r d).Step := by
  have hc := p.handle_cases h r d
  unfold Point.of
  generalize p.handle h r d = y at hc ⊢
  cases hc with
  | skipped known => exact .skip known rfl rfl
  | deferred new _ _ => exact .wait new _ rfl rfl
  | panicked ready _ | aborted ready _ | unwritten ready _ _ | generated ready _ _ =>
    exact .settle ready.new rfl rfl

theorem of_isOf (p : Processor σ) (r : Resolver) (d : Declared) :
    (Point.of h p r d).fate.IsOf d.qualifiedName := by
  have hc := p.handle_cases h r d
  unfold Point.of
  generalize p.handle h r d = y at hc ⊢
  cases hc with
  | aborted _ unit => exact unitOf_failure unit
  | generated _ unit _ => exact (unitOf_ok unit).qualifiedName
  | _ => trivial

end Point

/-! ## Trails -/

namespace Trail

variable {σ : Type} {h : Host σ}

/-- The tracker at the end holds what it held before and what was taken up since. -/
theorem mem_processed {p q : Processor σ} {xs : List (Point σ)} (ht : Trail h p xs q) (n : String) :
    n ∈ q.tracker.processed ↔ n ∈ p.tracker.processed ∨ n ∈ settledNames xs := by
  induction ht with
  | nil => simp [settledNames]
  | log _ _ _ ih => exact ih
  | @visit p q xs r d _ ih =>
    have hbefore : (Point.of h p r d).before = p := rfl
    rw [ih, settledNames_cons, ← or_assoc,
      show (p.handle h r d).1 = (Point.of h p r d).after from rfl]
    refine or_congr ?_ .rfl
    cases Point.of_step h p r d with
    | skip _ hf hsame | wait _ _ hf hsame => simp [hf, hsame, hbefore, Fate.isSettled]
    | settle _ hf hadd => simp [hadd, hf, hbefore, or_comm]

/-- A service that was taken up before is skipped all along. -/
theorem skipped_of_mem {p q : Processor σ} {xs : List (Point σ)} (ht : Trail h p xs q)
    {name : String} (hn : name ∈ p.tracker.processed) : ∀ f ∈ fatesOf name xs, f = .skipped := by
  induction ht with
  | nil => simp [fatesOf]
  | log _ _ _ ih => exact ih hn
  | @visit p q xs r d htail ih =>
    have hafter : name ∈ (p.handle h r d).1.tracker.processed :=
      ((Trail.visit r d (.nil _)).mem_processed name).2 (.inl hn)
    intro f hf
    by_cases hx : (Point.of h p r d).name = name
    · rw [fatesOf_cons_self hx] at hf
      rcases List.mem_cons.1 hf with rfl | hf
      · cases Point.of_step h p r d with
        | skip _ hfate _ => exact hfate
        | wait new | settle new => exact absurd (hx ▸ hn) new
      · exact ih hafter f hf
    · rw [fatesOf_cons_other hx] at hf
      exact ih hafter f hf

theorem fates_lifecycle {p q : Processor σ} {xs : List (Point σ)} (ht : Trail h p xs q)
    {name : String} (hn : name ∉ p.tracker.processed) : Lifecycle (fatesOf name xs) := by
  induction ht with
  | nil => exact .idle
  | log _ _ _ ih => exact ih hn
  | @visit p q xs r d htail ih =>
    by_cases hx : (Point.of h p r d).name = name
    · rw [fatesOf_cons_self hx]
      cases Point.of_step h p r d with
      | skip known => exact absurd (hx ▸ known) hn
      | wait _ names hfate hsame =>
        rw [hfate]
        exact .wait (ih (hsame ▸ hn))
      | settle _ hsettled hadd =>
        refine .settle hsettled (htail.skipped_of_mem ?_)
        show name ∈ (Point.of h p r d).after.tracker.processed
        rw [hadd, hx]
        exact .head _
    · rw [fatesOf_cons_other hx]
      refine ih fun hafter => hn ?_
      -- only the visited service can have been added
      cases Point.of_step h p r d with
      | skip _ _ hsame | wait _ _ _ hsame => exact hsame ▸ hafter
      | settle _ _ hadd =>
        rcases List.mem_cons.1 (hadd ▸ hafter) with rfl | hafter
        · exact absurd rfl hx
        · exact hafter

end Trail

/-! ## Requests -/

/-- **The life of a service.** For every host and every sequence of requests: the fates of each
service are a `Lifecycle`; at every point the tracker only grows, holds the names that were taken
up so far, and takes up a name that it does not hold. -/
theorem service_lifecycle {σ : Type} (h : Host σ) (c : Config) (world : σ) (qs : List Request) :
    let p := (Request.serveAll h (.start c world) qs).1
    let xs := (Request.serveAll h (.start c world) qs).2
    (∀ name, Lifecycle (fatesOf name xs)) ∧
    (∀ earlier x later, xs = earlier ++ x :: later →
      (∀ n, n ∈ x.before.tracker.processed ↔ n ∈ settledNames earlier) ∧
      (∀ n, n ∈ x.after.tracker.processed ↔ n ∈ settledNames (earlier ++ [x])) ∧
      (∀ n ∈ x.before.tracker.processed, n ∈ x.after.tracker.processed) ∧
      (x.before.tracker.isProcessed x.name = false →
        (x.before.tracker.takeUp x.name).2 = true) ∧
      x.fate.IsOf x.name) ∧
    ∀ n, n ∈ p.tracker.processed ↔ n ∈ settledNames xs := by
  intro p xs
  have ht : Trail h (.start c world) xs p := Request.serveAll_trail h (.start c world) qs
  have hempty : ∀ n, n ∉ (Processor.start c world).tracker.processed := fun n => List.not_mem_nil
  refine ⟨fun name => ht.fates_lifecycle (hempty name), fun earlier x later hxs => ?_, fun n => ?_⟩
  · rw [hxs] at ht
    obtain ⟨r, d, hx, hearlier, -⟩ := ht.split
    have hvisit : Trail h x.before [x] x.after := by
      rw [hx]
      exact .visit r d (.nil _)
    have hbefore : ∀ n, n ∈ x.before.tracker.processed ↔ n ∈ settledNames earlier := fun n => by
      rw [hearlier.mem_processed]
      simp [hempty]
    have hafter : ∀ n, n ∈ x.after.tracker.processed ↔ n ∈ settledNames (earlier ++ [x]) :=
      fun n => by
        rw [(hearlier.append hvisit).mem_processed]
        simp [hempty]
    refine ⟨hbefore, hafter, fun n hn => (hvisit.mem_processed n).2 (.inl hn), fun hnew => ?_, ?_⟩
    · rw [Tracker.takeUp_of_not_mem fun hm => by
        rw [Tracker.isProcessed_iff.2 hm] at hnew; cases hnew]
    · rw [hx]
      exact Point.of_isOf h x.before r d
  · rw [ht.mem_processed]
    simp [hempty]

end WrapperGen
