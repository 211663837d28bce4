import WrapperGen.Config.Validation
import WrapperGen.Output.Recording
import WrapperGen.Proofs.Rounds.Fixpoint
import WrapperGen.Proofs.Rounds.Panics
/-!
# The place of every trait in a report

`round_places`: a round that returns reports every marked trait that it found in one place, and it
returns unless the wrappers of a trait that it takes up cannot be emitted. Plain names and types
without raw tokens prevent that; a raw name stops the whole round (`raw_name_stops_round`).
-/

namespace WrapperGen

namespace Processor

variable {σ : Type} {h : Host σ} {p : Processor σ} {r : Resolver}

/-! ## What a round takes up -/

/-- The traits that are taken up: the first ready one of each name. -/
def TakesUp (p : Processor σ) (r : Resolver) (ds : List Declared) (d : Declared) : Prop :=
  ∃ earlier later, ds = earlier ++ d :: later ∧ p.IsReady r d ∧
    ∀ e ∈ earlier, e.qualifiedName = d.qualifiedName → ¬ p.IsReady r e

theorem takesUp_cons {ds : List Declared} {d e : Declared} :
    p.TakesUp r (e :: ds) d ↔ (d = e ∧ p.IsReady r e) ∨
      (p.IsReady r e → e.qualifiedName ≠ d.qualifiedName) ∧ p.TakesUp r ds d := by
  constructor
  · rintro ⟨_ | ⟨e', earlier⟩, later, hds, hready, hearlier⟩
    · obtain ⟨rfl, rfl⟩ := List.cons.inj hds
      exact .inl ⟨rfl, hready⟩
    · obtain ⟨rfl, rfl⟩ := List.cons.inj hds
      exact .inr ⟨fun he hname => hearlier e (.head _) hname he, earlier, later, rfl, hready,
        fun x hx => hearlier x (.tail _ hx)⟩
  · rintro (⟨rfl, hready⟩ | ⟨he, earlier, later, rfl, hready, hearlier⟩)
    · exact ⟨[], ds, rfl, hready, fun x hx => absurd hx List.not_mem_nil⟩
    · refine ⟨e :: earlier, later, rfl, hready, ?_⟩
      rintro x (_ | ⟨_, hx⟩) hname
      · exact fun hx => he hx hname
      · exact hearlier x hx hname

/-- Taking up a name leaves ready what was so under other names. -/
theorem isReady_of_takenUp {q : Processor σ} {name : String} {d : Declared}
    (hconfig : q.config = p.config) (htaken : q.tracker.processed = name :: p.tracker.processed) :
    q.IsReady r d ↔ p.IsReady r d ∧ name ≠ d.qualifiedName := by
  constructor
  · rintro ⟨new, resolved⟩
    rw [htaken, List.mem_cons, not_or] at new
    exact ⟨⟨new.2, hconfig ▸ resolved⟩, fun hname => new.1 hname.symm⟩
  · rintro ⟨⟨new, resolved⟩, hname⟩
    refine ⟨?_, hconfig.symm ▸ resolved⟩
    rw [htaken, List.mem_cons, not_or]
    exact ⟨fun heq => hname heq.symm, new⟩

/-- After a visit the others are ready that were so, but not under the name that was taken up. -/
theorem handle_isReady {d e : Declared} : (p.handle h r e).1.IsReady r d ↔
    p.IsReady r d ∧ (p.IsReady r e → e.qualifiedName ≠ d.qualifiedName) := by
  have hc := p.handle_cases h r e
  generalize p.handle h r e = y at hc ⊢
  cases hc with
  | skipped known =>
    have he : ¬ p.IsReady r e := fun he => he.new known
    simp [he]
  | deferred _ unresolved some =>
    have he : ¬ p.IsReady r e := fun he => some (unresolved.symm.trans he.resolved)
    refine (isReady_congr (p := p) (by rfl) (by rfl)).trans ?_
    simp [he]
  | panicked ready _ | aborted ready _ | unwritten ready _ _ | generated ready _ _ =>
    refine (isReady_of_takenUp (p := p) (by rfl) (by rfl)).trans ?_
    simp [ready]

theorem takesUp_handle {ds : List Declared} {d e : Declared} :
    (p.handle h r e).1.TakesUp r ds d ↔
      (p.IsReady r e → e.qualifiedName ≠ d.qualifiedName) ∧ p.TakesUp r ds d := by
  constructor
  · rintro ⟨earlier, later, rfl, hready, hearlier⟩
    obtain ⟨hready, he⟩ := handle_isReady.1 hready
    refine ⟨he, earlier, later, rfl, hready, fun x hx hname hxready => ?_⟩
    exact hearlier x hx hname (handle_isReady.2 ⟨hxready, hname ▸ he⟩)
  · rintro ⟨he, earlier, later, rfl, hready, hearlier⟩
    exact ⟨earlier, later, rfl, handle_isReady.2 ⟨hready, he⟩, fun x hx hname hxready =>
      hearlier x hx hname (handle_isReady.1 hxready).1⟩

/-! ## Panics -/

theorem handle_panic {d : Declared} : (p.handle h r d).2.isPanic = true ↔
    p.IsReady r d ∧ ∃ text, unitOf p.config r d = .error (.panic text) := by
  have hc := p.handle_cases h r d
  generalize p.handle h r d = y at hc ⊢
  cases hc with
  | skipped known => exact ⟨nofun, fun hd => absurd known hd.1.new⟩
  | deferred _ unresolved some =>
    exact ⟨nofun, fun hd => absurd (unresolved.symm.trans hd.1.resolved) some⟩
  | panicked ready unit => exact ⟨fun _ => ⟨ready, _, unit⟩, fun _ => rfl⟩
  | aborted ready unit => simp [Fate.isPanic, unit]
  | unwritten ready unit _ => simp [Fate.isPanic, unit]
  | generated ready unit _ => simp [Fate.isPanic, unit]

/-- A round comes to its end exactly if it takes up no trait whose emission panics. -/
theorem handleAll_quiet {ds : List Declared} :
    (∀ v ∈ (p.handleAll h r ds).2, v.panic? = none) ↔
      ∀ d, p.TakesUp r ds d → ¬ ∃ text, unitOf p.config r d = .error (.panic text) := by
  induction ds generalizing p with
  | nil =>
    refine ⟨fun _ d hd => ?_, fun _ v hv => absurd hv List.not_mem_nil⟩
    obtain ⟨_ | _, later, hnil, -⟩ := hd <;> cases hnil
  | cons e ds ih =>
    have hrest := ih (p := (p.handle h r e).1)
    rw [handle_config] at hrest
    rw [handleAll_cons]
    dsimp only
    cases hpanic : (p.handle h r e).2.isPanic with
    | true =>
      obtain ⟨hready, htext⟩ := handle_panic.1 hpanic
      refine iff_of_false (fun hquiet => ?_) fun hall =>
        hall e (takesUp_cons.2 (.inl ⟨rfl, hready⟩)) htext
      exact absurd (Visit.panic?_eq_none.1 (hquiet _ (.head _))) (by simp [hpanic])
    | false =>
      have hhead : p.IsReady r e → ¬ ∃ text, unitOf p.config r e = .error (.panic text) :=
        fun hready htext => by
          rw [handle_panic.2 ⟨hready, htext⟩] at hpanic
          cases hpanic
      have hvisit : (⟨e, (p.handle h r e).2⟩ : Visit).panic? = none := Visit.panic?_eq_none.2 hpanic
      simp only [Bool.false_eq_true, if_false, List.forall_mem_cons, hvisit, true_and, hrest]
      constructor
      · rintro hall d hd
        rcases takesUp_cons.1 hd with ⟨rfl, hready⟩ | hd
        · exact hhead hready
        · exact hall d (takesUp_handle.2 hd)
      · exact fun hall d hd => hall d (takesUp_cons.2 (.inr (takesUp_handle.1 hd)))

end Processor

/-! ## Reports -/

/-- **Every trait has its place.** For every host, every universe and every processor:

* a round returns exactly if every trait that it takes up can be emitted or fails before that, and
  plain settings and plain traits are enough for it;
* a round that returns visits every marked trait that the scan found, in this order, and reports
  each of them in one of its lists, under the name of the trait. -/
theorem round_places {σ : Type} (h : Host σ) (u : Universe) (retried : List String)
    (p : Processor σ) :
    let c := p.config
    let r := Resolver.ofUniverse u
    let found := scan u c.marker
    ((∃ out, (p.round h u retried).2 = .ok out) ↔
      ∀ d, p.TakesUp r found d → ∀ i, classifyInterface c r d = .ok i → Emit.Emittable c i) ∧
    (c.IsPlain → (∀ d ∈ found, d.IsPlain c) → ∃ out, (p.round h u retried).2 = .ok out) ∧
    ∀ out, (p.round h u retried).2 = .ok out →
      ∃ visits : List Visit, visits.map (·.declaration) = found ∧ out = .collect visits ∧
        ∀ v ∈ visits, v.places.count true = 1 ∧ v.fate.IsOf v.name := by
  intro c r found
  have hreturns : (∃ out, (p.round h u retried).2 = .ok out) ↔
      ∀ d, p.TakesUp r found d → ∀ i, classifyInterface c r d = .ok i → Emit.Emittable c i := by
    have hquiet : (∃ out, (p.round h u retried).2 = .ok out) ↔
        ∀ v ∈ (p.visit h u).2, v.panic? = none :=
      ⟨fun ⟨_, hout⟩ => (Processor.round_ok.1 hout).1,
        fun hv => ⟨_, Processor.round_ok.2 ⟨hv, rfl⟩⟩⟩
    rw [hquiet, Processor.visit, Processor.handleAll_quiet]
    refine forall₂_congr fun d _ => ?_
    rw [unitOf_panic]
    simp only [not_exists, not_and, Classical.not_not]
    rfl
  refine ⟨hreturns, fun hc hfound => hreturns.2 fun d hd i hi => ?_, fun out hout => ?_⟩
  · obtain ⟨earlier, later, hds, -, -⟩ := hd
    exact emittable_of_plain hc (hfound d (by rw [hds]; simp)) hi
  · obtain ⟨hquiet, rfl⟩ := Processor.round_ok.1 hout
    exact ⟨_, Processor.handleAll_declarations hquiet, rfl, fun v hv =>
      ⟨Visit.count_places (hquiet v hv), Processor.visit_isOf hv⟩⟩

/-- The traits of `unevenCopies` are plain, so a round over it returns and visits all of them. -/
theorem uneven_round_returns :
    ∃ out visits,
      ((Processor.start .default (.start none)).round Recording.host unevenCopies []).2 = .ok out ∧
      out = .collect visits ∧ visits.map (·.name) =
        ["crate::api::Twice", "crate::api::Twice", "crate::api::Late", "crate::api::Alone"] := by
  obtain ⟨-, hplain, hplaces⟩ :=
    round_places Recording.host unevenCopies [] (.start .default (.start none))
  obtain ⟨out, hout⟩ := hplain (by decide +kernel) (by decide +kernel)
  obtain ⟨visits, hvisits, hcollect, -⟩ := hplaces out hout
  refine ⟨out, visits, hout, hcollect, ?_⟩
  have hnames : visits.map (·.name) =
      (scan unevenCopies Config.default.marker).map (·.qualifiedName) := by
    rw [show scan unevenCopies Config.default.marker = _ from hvisits.symm, List.map_map]
    rfl
  rw [hnames]
  decide +kernel

/-- A trait with a raw name before another one. -/
def rawSource : String :=
  "#[remote_service]\ntrait r#Raw: Send + Sync {}\n" ++
  "#[remote_service]\ntrait Good: Send + Sync {}\n"

/-- The settings pass their check and the file is read, but the round ends with a panic. -/
theorem raw_name_stops_round :
    Config.default.problems = [] ∧ ∃ u, Universe.ofSources [("api.rs", rawSource)] = .ok u ∧
      ((Processor.start .default (.start none)).round Recording.host u []).2 =
        .error "\"r#RawDslExtensions\" is not a valid Ident" := by
  refine ⟨Config.default_problems, ?_⟩
  have hpanic : ((Universe.ofSources [("api.rs", rawSource)]).toOption.bind fun u =>
      ((Processor.start .default (.start none)).visit Recording.host u).2.findSome?
        Visit.panic?) = some "\"r#RawDslExtensions\" is not a valid Ident" := by decide +kernel
  obtain ⟨u, hu, hpanic⟩ := Option.bind_eq_some_iff.1 hpanic
  refine ⟨u, toOption_eq_some.1 hu, ?_⟩
  rw [Processor.round_report, Processor.roundHistory, Processor.historyOf_visits,
    RoundOutput.ofVisits_eq]
  rw [Processor.visit] at hpanic
  rw [hpanic]

end WrapperGen
