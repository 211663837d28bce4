import WrapperGen.Proofs.Rounds.Lifecycle
/-!
# Reports of rounds

A report has one list for each way in which a visit can end. `RoundOutput.collect` sorts visits into
these lists; a round reports just that, unless one of its visits ended with a panic
(`RoundOutput.ofVisits_eq`).
-/

namespace WrapperGen

/-! ## Visits -/

namespace Visit

def name (v : Visit) : String := v.declaration.qualifiedName

/-- The record of a unit that was generated. -/
def record? (v : Visit) : Option GeneratedRecord :=
  match v.fate with
  | .generated u outcome => some ⟨u.qualifiedName, u.unitName, outcome.path, outcome.isWritten⟩
  | _ => none

def deferral? (v : Visit) : Option DeferredService :=
  match v.fate with
  | .deferred names => some ⟨v.declaration, names⟩
  | _ => none

def skip? (v : Visit) : Option String :=
  match v.fate with
  | .skipped => some v.name
  | _ => none

def abortion? (v : Visit) : Option Failure :=
  match v.fate with
  | .aborted f => some f
  | _ => none

/-- Why a unit could not be written. -/
def refusal? (v : Visit) : Option Failure :=
  match v.fate with
  | .unwritten f => some f
  | _ => none

def panic? (v : Visit) : Option String :=
  match v.fate with
  | .panicked text => some text
  | _ => none

theorem panic?_eq_none {v : Visit} : v.panic? = none ↔ v.fate.isPanic = false := by
  unfold panic? Fate.isPanic
  cases v.fate <;> simp

/-- In which lists of a report the visit stands: those of units, of services that wait, of services
that were taken up before, of failures and of units that could not be written. -/
def places (v : Visit) : List Bool :=
  [v.record?.isSome, v.deferral?.isSome, v.skip?.isSome, v.abortion?.isSome, v.refusal?.isSome]

/-- A visit that did not panic stands in one list. -/
theorem count_places {v : Visit} (hv : v.panic? = none) : v.places.count true = 1 := by
  unfold panic? at hv
  unfold places record? deferral? skip? abortion? refusal?
  cases hf : v.fate with
  | panicked text => simp [hf] at hv
  | _ => simp

/-- A visit that took up nothing makes no progress. -/
theorem unsettled {v : Visit} (hv : v.fate.isSettled = false) :
    v.record? = none ∧ v.abortion? = none ∧ v.refusal? = none ∧ v.panic? = none := by
  unfold record? abortion? refusal? panic?
  cases hf : v.fate with
  | skipped => simp
  | deferred names => simp
  | _ => simp [hf, Fate.isSettled] at hv

end Visit

/-- What is only said of visits that took something up. -/
theorem Visit.filterMap_settled {β : Type} {f : Visit → Option β}
    (hf : ∀ v : Visit, v.fate.isSettled = false → f v = none) (vs : List Visit) :
    (vs.filter (·.fate.isSettled)).filterMap f = vs.filterMap f := by
  rw [List.filterMap_filter]
  congr 1
  funext v
  cases hv : v.fate.isSettled with
  | true => rfl
  | false => rw [hf v hv]; rfl

/-! ## Lists of visits -/

namespace RoundOutput

def append (a b : RoundOutput) : RoundOutput where
  generated := a.generated ++ b.generated
  deferred := a.deferred ++ b.deferred
  skipped := a.skipped ++ b.skipped
  aborted := a.aborted ++ b.aborted
  writeFailures := a.writeFailures ++ b.writeFailures

def collect (vs : List Visit) : RoundOutput where
  generated := vs.filterMap Visit.record?
  deferred := vs.filterMap Visit.deferral?
  skipped := vs.filterMap Visit.skip?
  aborted := vs.filterMap Visit.abortion?
  writeFailures := vs.filterMap Visit.refusal?

theorem empty_append (o : RoundOutput) : empty.append o = o := by simp [append, empty]

theorem append_assoc (a b c : RoundOutput) : (a.append b).append c = a.append (b.append c) := by
  simp [append]

theorem append_collect_nil (o : RoundOutput) : o.append (collect []) = o := by
  simp [append, collect]

theorem collect_cons (v : Visit) (vs : List Visit) :
    collect (v :: vs) = (collect [v]).append (collect vs) := by
  simp only [collect, append, ← List.filterMap_append, List.singleton_append]

theorem add_eq (o : RoundOutput) (v : Visit) :
    o.add v = match v.panic? with
      | some text => .error text
      | none => .ok (o.append (collect [v])) := by
  unfold add
  cases hf : v.fate <;>
    simp [append, collect, Visit.record?, Visit.deferral?, Visit.skip?, Visit.abortion?,
      Visit.refusal?, Visit.panic?, Visit.name, hf]

theorem foldlM_add (vs : List Visit) (o : RoundOutput) :
    vs.foldlM add o = match vs.findSome? Visit.panic? with
      | some text => .error text
      | none => .ok (o.append (collect vs)) := by
  induction vs generalizing o with
  | nil => rw [append_collect_nil]; rfl
  | cons v vs ih =>
    rw [List.foldlM_cons, add_eq, List.findSome?_cons]
    cases v.panic? with
    | some text => rfl
    | none =>
      rw [collect_cons v vs, ← append_assoc]
      exact ih _

/-- What a round reports. -/
theorem ofVisits_eq (vs : List Visit) :
    ofVisits vs = match vs.findSome? Visit.panic? with
      | some text => .error text
      | none => .ok (collect vs) := by
  rw [ofVisits, foldlM_add, empty_append]

theorem ofVisits_ok {vs : List Visit} {out : RoundOutput} :
    ofVisits vs = .ok out ↔ (∀ v ∈ vs, v.panic? = none) ∧ out = collect vs := by
  rw [ofVisits_eq]
  cases hp : vs.findSome? Visit.panic? with
  | some text =>
    obtain ⟨v, hv, hpanic⟩ := List.exists_of_findSome?_eq_some hp
    simp only [reduceCtorEq, false_iff, not_and]
    intro hno
    rw [hno v hv] at hpanic
    cases hpanic
  | none =>
    rw [List.findSome?_eq_none_iff] at hp
    simp only [Except.ok.injEq]
    exact ⟨fun h => ⟨hp, h.symm⟩, fun h => h.2.symm⟩

/-- Only what was taken up is progress. -/
theorem madeProgress_collect {vs : List Visit} (hvs : ∀ v ∈ vs, v.panic? = none) :
    (collect vs).madeProgress = vs.any (·.fate.isSettled) := by
  induction vs with
  | nil => rfl
  | cons v vs ih =>
    rw [List.any_cons, ← ih fun w hw => hvs w (.tail _ hw)]
    have hv := hvs v (.head _)
    unfold Visit.panic? at hv
    cases hf : v.fate with
    | panicked text => simp [hf] at hv
    | _ =>
      simp [madeProgress, collect, Visit.record?, Visit.abortion?, Visit.refusal?, Fate.isSettled,
        hf]

end RoundOutput

/-! ## The visits of a round -/

namespace Processor

variable {σ : Type} {h : Host σ}

theorem handleAll_cons (r : Resolver) (d : Declared) (ds : List Declared) (p : Processor σ) :
    p.handleAll h r (d :: ds) =
      let q := (p.handle h r d).1
      let v : Visit := ⟨d, (p.handle h r d).2⟩
      if v.fate.isPanic then (q, [v])
      else ((q.handleAll h r ds).1, v :: (q.handleAll h r ds).2) :=
  rfl

theorem handleAll_cons_quiet {r : Resolver} {d : Declared} {ds : List Declared} {p : Processor σ}
    (hv : ∀ v ∈ (p.handleAll h r (d :: ds)).2, v.panic? = none) :
    p.handleAll h r (d :: ds) =
      (((p.handle h r d).1.handleAll h r ds).1,
        ⟨d, (p.handle h r d).2⟩ :: ((p.handle h r d).1.handleAll h r ds).2) := by
  rw [handleAll_cons] at hv ⊢
  dsimp only at hv ⊢
  cases hpanic : (p.handle h r d).2.isPanic with
  | false => rfl
  | true =>
    rw [hpanic] at hv
    exact absurd (Visit.panic?_eq_none.1 (hv _ (.head _))) (by simp [hpanic])

/-- Without a panic every trait is visited. -/
theorem handleAll_declarations {r : Resolver} {ds : List Declared} {p : Processor σ}
    (hv : ∀ v ∈ (p.handleAll h r ds).2, v.panic? = none) :
    (p.handleAll h r ds).2.map (·.declaration) = ds := by
  induction ds generalizing p with
  | nil => rfl
  | cons d ds ih =>
    have hcons := handleAll_cons_quiet hv
    rw [hcons] at hv ⊢
    rw [List.map_cons, ih fun v hmem => hv v (.tail _ hmem)]

/-- What a round says of a trait it says under its name. -/
theorem visit_isOf {u : Universe} {p : Processor σ} {v : Visit} (hv : v ∈ (p.visit h u).2) :
    v.fate.IsOf v.name := by
  rw [visit, ← historyOf_visits] at hv
  obtain ⟨x, hx, rfl⟩ := List.mem_map.1 hv
  have ht := historyOf_trail h (.ofUniverse u) (scan u p.config.marker) p
  obtain ⟨xs, ys, hxs⟩ := List.append_of_mem hx
  rw [hxs] at ht
  obtain ⟨r, d, hof, -, -⟩ := ht.split
  rw [hof]
  exact Point.of_isOf h x.before r d

/-- A round returns a report unless one of its visits ended with a panic. -/
theorem round_ok {u : Universe} {retried : List String} {p : Processor σ} {out : RoundOutput} :
    (p.round h u retried).2 = .ok out ↔
      (∀ v ∈ (p.visit h u).2, v.panic? = none) ∧ out = .collect (p.visit h u).2 := by
  rw [round_report, roundHistory, historyOf_visits]
  exact RoundOutput.ofVisits_ok

end Processor

/-! ## Traits with the marker -/

/-- A trait as it is read from a file: marked, with plain bounds. -/
def markedTrait (name : String) (bounds : List String) (members : List Source.Member) :
    Source.Trait where
  attrs := [⟨.single "remote_service", []⟩]
  vis := .inherited
  unchecked := false
  auto := false
  name := name
  line := 1
  generics := .none
  supertraits := bounds.map fun n => .trait false false none (.single n)
  trailing := false
  members := members

/-- A method without parameters that returns a type of this name. -/
def getter (name type : String) : Source.Member :=
  .method {
    attrs := []
    vis := .inherited
    signature := {
      constant := false
      asynchronous := false
      unchecked := false
      abi := none
      name := name
      generics := .none
      inputs := [.receiver [] ⟨some none, false, none⟩]
      trailing := false
      variadic := []
      output := some (.named type) }
    body := none }

end WrapperGen
