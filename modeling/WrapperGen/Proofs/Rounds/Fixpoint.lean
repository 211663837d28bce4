import WrapperGen.Output.Recording
import WrapperGen.Proofs.Rounds.Reports
/-!
# Runs to the fixpoint

Whether a trait is ready depends on the universe, the settings and the tracker, and a round takes up
every trait that is ready. So the round after it finds none (`handleAll_settles`), and a round that
finds none changes nothing (`round_idle`): a run stops after its second round, and a second run
after its first.
-/

namespace WrapperGen

namespace Processor

variable {σ : Type} {h : Host σ}

/-! ## Nothing but messages -/

theorem isReady_congr {p q : Processor σ} {r : Resolver} {d : Declared}
    (hconfig : q.config = p.config) (htracker : q.tracker = p.tracker) :
    q.IsReady r d ↔ p.IsReady r d := by
  constructor
  · rintro ⟨new, resolved⟩
    exact ⟨htracker ▸ new, hconfig ▸ resolved⟩
  · rintro ⟨new, resolved⟩
    exact ⟨htracker.symm ▸ new, hconfig.symm ▸ resolved⟩

/-- From `p` to `q` nothing happened but messages. -/
structure Idled (h : Host σ) (p q : Processor σ) : Prop where
  config : q.config = p.config
  tracker : q.tracker = p.tracker
  world : ∃ entries : List Entry, q.world = entries.foldl (fun w e => h.log e w) p.world

namespace Idled

theorem refl (p : Processor σ) : Idled h p p := ⟨rfl, rfl, [], rfl⟩

theorem trans {p q s : Processor σ} (hpq : Idled h p q) (hqs : Idled h q s) : Idled h p s := by
  obtain ⟨es, hes⟩ := hpq.world
  obtain ⟨fs, hfs⟩ := hqs.world
  exact ⟨hqs.config.trans hpq.config, hqs.tracker.trans hpq.tracker, es ++ fs,
    by rw [List.foldl_append, ← hes, hfs]⟩

theorem log {p q : Processor σ} (hpq : Idled h p q) (level : Level) (message : String) :
    Idled h p (q.log h level message) :=
  hpq.trans ⟨rfl, rfl, [⟨level, message⟩], rfl⟩

theorem logAll {p q : Processor σ} (hpq : Idled h p q) (level : Level) (messages : List String) :
    Idled h p (q.logAll h level messages) := by
  induction messages generalizing q with
  | nil => exact hpq
  | cons m ms ih => exact ih (hpq.log level m)

theorem isReady_iff {p q : Processor σ} (hpq : Idled h p q) {r : Resolver} {d : Declared} :
    q.IsReady r d ↔ p.IsReady r d :=
  isReady_congr hpq.config hpq.tracker

end Idled

/-! ## Traits that are not ready -/

/-- The fate of a trait that is not ready. -/
def idleFate (p : Processor σ) (r : Resolver) (d : Declared) : Fate :=
  if p.tracker.isProcessed d.qualifiedName then .skipped
  else .deferred (unresolvedIn p.config r d)

theorem idleFate_unsettled (p : Processor σ) (r : Resolver) (d : Declared) :
    (p.idleFate r d).isSettled = false := by
  unfold idleFate
  split <;> rfl

/-- The visits of traits none of which is ready. -/
def idleVisits (p : Processor σ) (r : Resolver) (ds : List Declared) : List Visit :=
  ds.map fun d => ⟨d, p.idleFate r d⟩

theorem handle_idle {p : Processor σ} {r : Resolver} {d : Declared} (hd : ¬ p.IsReady r d) :
    Idled h p (p.handle h r d).1 ∧ (p.handle h r d).2 = p.idleFate r d := by
  have hc := p.handle_cases h r d
  generalize p.handle h r d = y at hc ⊢
  cases hc with
  | skipped known =>
    exact ⟨.refl p, by rw [idleFate, if_pos (Tracker.isProcessed_iff.2 known)]⟩
  | deferred new unresolved _ =>
    refine ⟨(Idled.refl p).log _ _, ?_⟩
    rw [idleFate, if_neg fun known => new (Tracker.isProcessed_iff.1 known), unresolved]
  | panicked ready _ | aborted ready _ | unwritten ready _ _ | generated ready _ _ =>
    exact absurd ready hd

/-- Where no trait is ready, nothing happens but messages. -/
theorem handleAll_idle {p : Processor σ} {r : Resolver} {ds : List Declared}
    (hds : ∀ d ∈ ds, ¬ p.IsReady r d) :
    Idled h p (p.handleAll h r ds).1 ∧
      (p.handleAll h r ds).2 = p.idleVisits r ds := by
  suffices hs : ∀ q, Idled h p q → Idled h p (q.handleAll h r ds).1 ∧
      (q.handleAll h r ds).2 = p.idleVisits r ds from hs p (.refl p)
  induction ds with
  | nil => exact fun q hq => ⟨hq, rfl⟩
  | cons d ds ih =>
    intro q hq
    obtain ⟨hidle, hfate⟩ :=
      handle_idle (h := h) fun hready => hds d (.head _) (hq.isReady_iff.1 hready)
    have hsame : q.idleFate r d = p.idleFate r d := by
      unfold idleFate
      rw [hq.tracker, hq.config]
    have hquiet : (p.idleFate r d).isPanic = false := by
      unfold idleFate
      split <;> rfl
    obtain ⟨hrest, hvisits⟩ := ih (fun d' hd' => hds d' (.tail _ hd')) _ (hq.trans hidle)
    rw [handleAll_cons, hfate, hsame]
    dsimp only
    rw [hquiet, hvisits]
    exact ⟨hrest, rfl⟩

/-- The services that wait, with the types they wait for. -/
def waiting (u : Universe) (p : Processor σ) : List DeferredService :=
  ((scan u p.config.marker).filter fun d => !p.tracker.isProcessed d.qualifiedName).map fun d =>
    ⟨d, unresolvedIn p.config (.ofUniverse u) d⟩

/-- A universe in which no trait is ready. -/
def IsSettled (p : Processor σ) (u : Universe) : Prop :=
  ∀ d ∈ scan u p.config.marker, ¬ p.IsReady (.ofUniverse u) d

theorem Idled.isSettled {p q : Processor σ} (hpq : Idled h p q) {u : Universe}
    (hp : p.IsSettled u) : q.IsSettled u := fun d hd hready =>
  hp d (hpq.config ▸ hd) (hpq.isReady_iff.1 hready)

theorem Idled.waiting {p q : Processor σ} (hpq : Idled h p q) (u : Universe) :
    q.waiting u = p.waiting u := by
  unfold Processor.waiting
  rw [hpq.config, hpq.tracker]

/-- After its visits a round at most logs. -/
theorem visit_idled_round (u : Universe) (retried : List String) (p : Processor σ) :
    Idled h (p.visit h u).1 (p.round h u retried).1 := by
  unfold round
  dsimp only
  split
  · exact .refl _
  · split
    · exact (Idled.refl _).log _ _
    · exact .refl _

/-- A round in a settled universe only says what it waits for. -/
theorem round_idle {p : Processor σ} {u : Universe} (hp : p.IsSettled u) (retried : List String) :
    ∃ (q : Processor σ) (skipped : List String),
      p.round h u retried = (q, .ok ⟨[], p.waiting u, skipped, [], []⟩) ∧ Idled h p q := by
  obtain ⟨hidle, hvisits⟩ := handleAll_idle (h := h) hp
  generalize hvs : p.idleVisits (.ofUniverse u) (scan u p.config.marker) = visits at hvisits
  have hquiet : ∀ v ∈ visits, v.fate.isSettled = false := by
    intro v hv
    rw [← hvs] at hv
    obtain ⟨d, -, rfl⟩ := List.mem_map.1 hv
    exact p.idleFate_unsettled _ d
  have hwaiting : visits.filterMap Visit.deferral? = p.waiting u := by
    rw [← hvs, idleVisits, List.filterMap_map, waiting, ← List.filterMap_eq_map,
      List.filterMap_filter]
    congr 1
    funext d
    simp only [Function.comp_apply, Visit.deferral?, idleFate]
    cases p.tracker.isProcessed d.qualifiedName <;> rfl
  have hround : (p.round h u retried).2 = .ok (.collect visits) := by
    refine round_ok.2 ⟨?_, congrArg _ hvisits.symm⟩
    rw [visit, hvisits]
    exact fun v hv => (Visit.unsettled (hquiet v hv)).2.2.2
  refine ⟨(p.round h u retried).1, visits.filterMap Visit.skip?, Prod.ext rfl ?_,
    hidle.trans (visit_idled_round u retried p)⟩
  rw [hround, RoundOutput.collect, hwaiting,
    List.filterMap_eq_nil_iff.2 fun v hv => (Visit.unsettled (hquiet v hv)).1,
    List.filterMap_eq_nil_iff.2 fun v hv => (Visit.unsettled (hquiet v hv)).2.1,
    List.filterMap_eq_nil_iff.2 fun v hv => (Visit.unsettled (hquiet v hv)).2.2.1]

/-! ## What a round settles -/

/-- A trait that is ready is taken up. -/
theorem handle_ready {p : Processor σ} {r : Resolver} {d : Declared} (hd : p.IsReady r d) :
    (p.handle h r d).2.isSettled = true := by
  have hc := p.handle_cases h r d
  generalize p.handle h r d = y at hc ⊢
  cases hc with
  | skipped known => exact absurd known hd.new
  | deferred _ unresolved some => exact absurd (unresolved.symm.trans hd.resolved) some
  | panicked | aborted | unwritten | generated => rfl

theorem handleAll_ready {p : Processor σ} {r : Resolver} {ds : List Declared}
    (hvs : ∀ v ∈ (p.handleAll h r ds).2, v.fate.isSettled = false) :
    ∀ d ∈ ds, ¬ p.IsReady r d := by
  induction ds generalizing p with
  | nil => exact fun d hd => absurd hd List.not_mem_nil
  | cons d ds ih =>
    rw [handleAll_cons_quiet fun v hv => (Visit.unsettled (hvs v hv)).2.2.2] at hvs
    have hd : ¬ p.IsReady r d := fun hready =>
      absurd (handle_ready (h := h) hready) (by simp [hvs _ (.head _)])
    have hrest := ih fun v hv => hvs v (.tail _ hv)
    rintro d' (_ | ⟨_, hd'⟩)
    · exact hd
    · exact fun hready => hrest d' hd' ((handle_idle hd).1.isReady_iff.2 hready)

/-- A round makes progress unless the universe is settled. -/
theorem round_progress {u : Universe} {retried : List String} {p : Processor σ} {out : RoundOutput}
    (hround : (p.round h u retried).2 = .ok out) : out.madeProgress = false ↔ p.IsSettled u := by
  constructor
  · intro hno
    obtain ⟨hquiet, rfl⟩ := round_ok.1 hround
    rw [RoundOutput.madeProgress_collect hquiet, List.any_eq_false] at hno
    exact handleAll_ready fun v hv => Bool.eq_false_iff.2 (hno v hv)
  · intro hp
    obtain ⟨q, skipped, hidle, -⟩ := round_idle (h := h) hp retried
    rw [hidle] at hround
    cases hround
    rfl

theorem handle_settles (p : Processor σ) (r : Resolver) (d : Declared) :
    ¬ (p.handle h r d).1.IsReady r d := by
  have hc := p.handle_cases h r d
  generalize p.handle h r d = y at hc ⊢
  intro hready
  cases hc with
  | skipped known => exact hready.new known
  | deferred _ unresolved some => exact some (unresolved.symm.trans hready.resolved)
  | panicked | aborted | unwritten | generated => exact hready.new (.head _)

end Processor

theorem Trail.not_ready {σ : Type} {h : Host σ} {p q : Processor σ} {xs : List (Point σ)}
    (ht : Trail h p xs q) {r : Resolver} {d : Declared} (hp : ¬ p.IsReady r d) :
    ¬ q.IsReady r d := fun hq =>
  hp ⟨fun hn => hq.new ((ht.mem_processed _).2 (.inl hn)), ht.config ▸ hq.resolved⟩

namespace Processor

variable {σ : Type} {h : Host σ}

/-- Where no visit ends with a panic, no trait is left that is ready. -/
theorem handleAll_settles {p : Processor σ} {r : Resolver} {ds : List Declared}
    (hv : ∀ v ∈ (p.handleAll h r ds).2, v.panic? = none) :
    ∀ d ∈ ds, ¬ (p.handleAll h r ds).1.IsReady r d := by
  induction ds generalizing p with
  | nil => exact fun d hd => absurd hd List.not_mem_nil
  | cons d ds ih =>
    have hcons := handleAll_cons_quiet hv
    rw [hcons] at hv ⊢
    rintro d' (_ | ⟨_, hd'⟩)
    · exact (historyOf_trail h r ds _).not_ready (p.handle_settles r d)
    · exact ih (fun v hmem => hv v (.tail _ hmem)) d' hd'

/-- A service that is still not taken up after its visit was deferred. -/
theorem handle_left {p : Processor σ} {r : Resolver} {d : Declared}
    (hd : d.qualifiedName ∉ (p.handle h r d).1.tracker.processed) :
    (p.handle h r d).2 = .deferred (unresolvedIn p.config r d) := by
  have hc := p.handle_cases h r d
  generalize p.handle h r d = y at hc hd ⊢
  cases hc with
  | skipped known => exact absurd known hd
  | deferred _ unresolved _ => rw [unresolved]
  | panicked | aborted | unwritten | generated => exact absurd (.head _) hd

/-- Of the services that a round defers, those that it does not take up later are the ones that
wait at its end. -/
theorem handleAll_waiting {p q : Processor σ} {r : Resolver} {ds : List Declared}
    (hv : ∀ v ∈ (p.handleAll h r ds).2, v.panic? = none) (hq : (p.handleAll h r ds).1 = q) :
    ((p.handleAll h r ds).2.filterMap Visit.deferral?).filter
        (fun s => !q.tracker.isProcessed s.declaration.qualifiedName) =
      (ds.filter fun d => !q.tracker.isProcessed d.qualifiedName).map fun d =>
        ⟨d, unresolvedIn p.config r d⟩ := by
  induction ds generalizing p with
  | nil => rfl
  | cons d ds ih =>
    have hcons := handleAll_cons_quiet hv
    rw [hcons] at hv hq ⊢
    have hrest := ih (fun v hmem => hv v (.tail _ hmem)) hq
    rw [handle_config] at hrest
    by_cases hd : q.tracker.isProcessed d.qualifiedName
    · rw [List.filter_cons_of_neg (by simpa using hd), ← hrest, List.filterMap_cons]
      unfold Visit.deferral?
      cases (p.handle h r d).2 with
      | deferred names => exact List.filter_cons_of_neg (by simpa using hd)
      | _ => rfl
    · have hleft : d.qualifiedName ∉ (p.handle h r d).1.tracker.processed := fun hn =>
        hd (Tracker.isProcessed_iff.2
          (hq ▸ ((historyOf_trail h r ds _).mem_processed _).2 (.inl hn)))
      rw [List.filter_cons_of_pos (by simpa using hd), List.map_cons, ← hrest,
        List.filterMap_cons_some
          (show Visit.deferral? _ = some ⟨d, unresolvedIn p.config r d⟩ by
            rw [handle_left hleft]; rfl),
        List.filter_cons_of_pos (by simpa using hd)]

section
variable {u : Universe} {retried : List String} {p q : Processor σ} {out : RoundOutput}

theorem round_config (u : Universe) (retried : List String) (p : Processor σ) :
    (p.round h u retried).1.config = p.config :=
  (p.roundHistory_trail h u retried).config

/-- What a round leaves is what its visits left, but for messages. -/
theorem round_leaves (hround : p.round h u retried = (q, .ok out)) :
    Idled h (p.visit h u).1 q ∧ q.config = p.config := by
  obtain rfl : (p.round h u retried).1 = q := congrArg Prod.fst hround
  exact ⟨visit_idled_round u retried p, round_config u retried p⟩

/-- A round that returns leaves a settled universe. -/
theorem round_settles (hround : p.round h u retried = (q, .ok out)) : q.IsSettled u := by
  obtain ⟨hquiet, -⟩ := round_ok.1 (congrArg Prod.snd hround)
  obtain ⟨hidle, hconfig⟩ := round_leaves hround
  intro d hd hready
  rw [hconfig] at hd
  exact handleAll_settles hquiet d hd (hidle.isReady_iff.1 hready)

/-- What a round that returns leaves waiting. -/
theorem round_waiting (hround : p.round h u retried = (q, .ok out)) :
    out.deferred.filter (fun s => !q.tracker.isProcessed s.declaration.qualifiedName) =
      q.waiting u := by
  obtain ⟨hquiet, rfl⟩ := round_ok.1 (congrArg Prod.snd hround)
  obtain ⟨hidle, hconfig⟩ := round_leaves hround
  rw [waiting, hconfig, hidle.tracker]
  exact handleAll_waiting hquiet rfl

end

end Processor

/-! ## Names -/

/-- Along a trail no name is taken up twice, and none that was taken up before. -/
theorem Trail.settledNames_nodup {σ : Type} {h : Host σ} {p q : Processor σ} {xs : List (Point σ)}
    (ht : Trail h p xs q) :
    (settledNames xs).Nodup ∧ ∀ n ∈ settledNames xs, n ∉ p.tracker.processed := by
  induction ht with
  | nil => exact ⟨.nil, fun _ hn => absurd hn List.not_mem_nil⟩
  | log _ _ _ ih => exact ih
  | @visit p q xs r d _ ih =>
    obtain ⟨hnodup, hnew⟩ := ih
    have hbefore : (Point.of h p r d).before = p := rfl
    have hafter : (Point.of h p r d).after = (p.handle h r d).1 := rfl
    cases Point.of_step h p r d with
    | skip _ hf hsame | wait _ _ hf hsame =>
      rw [hafter, hbefore] at hsame
      have hnames : settledNames (Point.of h p r d :: xs) = settledNames xs := by
        rw [settledNames, List.filter_cons_of_neg (by simp [hf, Fate.isSettled])]
        rfl
      rw [hnames]
      exact ⟨hnodup, hsame ▸ hnew⟩
    | settle hn hf hadd =>
      rw [hafter, hbefore] at hadd
      have hnames : settledNames (Point.of h p r d :: xs) =
          (Point.of h p r d).name :: settledNames xs := by
        rw [settledNames, List.filter_cons_of_pos (by simpa using hf)]
        rfl
      rw [hnames]
      refine ⟨List.nodup_cons.2 ⟨fun hmem => hnew _ hmem (hadd ▸ .head _), hnodup⟩, ?_⟩
      rintro n (_ | ⟨_, hmem⟩)
      · exact hn
      · exact fun hold => hnew n hmem (hadd ▸ .tail _ hold)

namespace Processor

variable {σ : Type} {h : Host σ}

/-- The visits of a round that took something up. -/
def settledVisits (h : Host σ) (u : Universe) (p : Processor σ) : List Visit :=
  (p.visit h u).2.filter (·.fate.isSettled)

theorem settledVisits_names (u : Universe) (p : Processor σ) :
    ((p.settledVisits h u).map (·.name)).Nodup := by
  have hnames : (p.settledVisits h u).map (·.name) = settledNames (p.roundHistory h u) := by
    rw [settledVisits, visit, ← historyOf_visits, List.filter_map, List.map_map]
    rfl
  rw [hnames]
  exact (roundHistory_trail h u [] p).settledNames_nodup.1

end Processor

/-! ## Repeated rounds -/

/-- What a report says of a service that waits. -/
def DeferredService.line (s : DeferredService) : String × List String :=
  (s.declaration.qualifiedName, s.unresolved)

namespace Processor

variable {σ : Type} {h : Host σ} {u : Universe}

/-- In a settled universe one round is enough. -/
theorem rounds_idle {p : Processor σ} (hp : p.IsSettled u) (retried : List String)
    (report : BuildReport) :
    ∃ q, Idled h p q ∧ ∀ n, rounds h u (n + 1) retried p report =
      (q, .ok { report with
        rounds := report.rounds + 1
        deferred := (p.waiting u).map DeferredService.line }) := by
  obtain ⟨q, skipped, hround, hidle⟩ := round_idle (h := h) hp retried
  refine ⟨q, hidle, fun n => ?_⟩
  rw [rounds, hround]
  simp [RoundOutput.madeProgress, BuildReport.absorb, DeferredService.line]

/-- After a first round that returns, at most one more follows. -/
theorem rounds_two {p p₁ : Processor σ} {retried : List String} {out : RoundOutput}
    (hround : p.round h u retried = (p₁, .ok out)) (report : BuildReport) :
    ∃ q, Idled h p₁ q ∧ ∀ n, rounds h u (n + 2) retried p report =
      (q, .ok { report.absorb out with
        rounds := report.rounds + if out.madeProgress then 2 else 1
        deferred := (p₁.waiting u).map DeferredService.line }) := by
  have hstep : ∀ n, rounds h u (n + 2) retried p report =
      if out.madeProgress then rounds h u (n + 1) out.deferredNames p₁ (report.absorb out)
      else (p₁, .ok (report.absorb out)) := fun n => by rw [rounds, hround]
  cases hprogress : out.madeProgress with
  | true =>
    obtain ⟨q, hidle, hrounds⟩ := rounds_idle (h := h) (round_settles hround) out.deferredNames
      (report.absorb out)
    refine ⟨q, hidle, fun n => ?_⟩
    rw [hstep, hprogress, if_pos rfl, hrounds]
    rfl
  | false =>
    have hsettled := (round_progress (congrArg Prod.snd hround)).1 hprogress
    obtain ⟨q, skipped, hidle, hq⟩ := round_idle (h := h) hsettled retried
    obtain ⟨rfl, hout⟩ := Prod.mk.inj (hround.symm.trans hidle)
    obtain rfl := Except.ok.inj hout
    refine ⟨p₁, .refl p₁, fun n => ?_⟩
    rw [hstep, hprogress, hq.waiting]
    rfl

/-- The report of a run before its first round. -/
def startReport (u : Universe) : BuildReport := ⟨0, [], [], [], [], u.failures.map (·.message)⟩

/-- The processor before the first round of a run. -/
def warned (h : Host σ) (u : Universe) (p : Processor σ) : Processor σ :=
  p.logAll h .warn (u.failures.map (·.message))

/-- After its rounds a run only logs. -/
theorem fixpoint_of_rounds {p q : Processor σ} {report : BuildReport}
    (hrounds : rounds h u maxRounds [] (p.warned h u) (startReport u) = (q, .ok report)) :
    ∃ s, Idled h q s ∧ p.runToFixpoint h u = (s, .ok report) := by
  rw [warned, startReport] at hrounds
  unfold runToFixpoint
  dsimp only
  rw [hrounds]
  exact ⟨_, (Idled.refl q).logAll _ _, rfl⟩

/-- In a run that returns the first round does. -/
theorem first_round_of_fixpoint {p q : Processor σ} {report : BuildReport}
    (hrun : p.runToFixpoint h u = (q, .ok report)) :
    ∃ p₁ out, (p.warned h u).round h u [] = (p₁, .ok out) := by
  cases hround : (p.warned h u).round h u [] with
  | mk p₁ answer =>
    cases answer with
    | ok out => exact ⟨p₁, out, rfl⟩
    | error text =>
      rw [warned] at hround
      rw [runToFixpoint, show maxRounds = 15 + 1 from rfl, rounds, hround] at hrun
      cases hrun

/-- In a settled universe a run only says what it waits for. -/
theorem fixpoint_idle {p : Processor σ} (hp : p.IsSettled u) :
    ∃ q, Idled h p q ∧ p.runToFixpoint h u =
      (q, .ok { startReport u with
        rounds := 1
        deferred := (p.waiting u).map DeferredService.line }) := by
  have hstart : Idled h p (p.warned h u) := (Idled.refl p).logAll .warn _
  obtain ⟨q, hidle, hrounds⟩ := rounds_idle (h := h) (hstart.isSettled hp) [] (startReport u)
  obtain ⟨s, hs, hrun⟩ := fixpoint_of_rounds (hrounds 15)
  rw [hstart.waiting] at hrun
  exact ⟨s, (hstart.trans hidle).trans hs, hrun⟩

/-- What a report says of a first round are the visits that took something up. -/
theorem round_reports_settled {retried : List String} {p q : Processor σ} {out : RoundOutput}
    (hround : p.round h u retried = (q, .ok out)) :
    out.generated = (p.settledVisits h u).filterMap (·.record?) ∧
      out.aborted = (p.settledVisits h u).filterMap (·.abortion?) ∧
      out.writeFailures = (p.settledVisits h u).filterMap (·.refusal?) := by
  obtain ⟨-, rfl⟩ := round_ok.1 (congrArg Prod.snd hround)
  exact ⟨(Visit.filterMap_settled (fun _ hv => (Visit.unsettled hv).1) _).symm,
    (Visit.filterMap_settled (fun _ hv => (Visit.unsettled hv).2.1) _).symm,
    (Visit.filterMap_settled (fun _ hv => (Visit.unsettled hv).2.2.1) _).symm⟩

end Processor

/-- **Two rounds reach the fixpoint.** For every host and every processor: a run that returns stops
after its first round if that made no progress and after its second otherwise, whatever bound of two
or more there is on the rounds. It reports the services that the first round took up, each under its
own name and none twice, and those that this round deferred and did not take up after all. A second
run over the same universe needs one round, has the same services to wait for, and does nothing but
log. -/
theorem fixpoint_in_two_rounds {σ : Type} (h : Host σ) (u : Universe) (p q : Processor σ)
    (report : BuildReport) (hrun : p.runToFixpoint h u = (q, .ok report)) :
    let failures := u.failures.map (·.message)
    let p₀ := p.warned h u
    let visits := p₀.settledVisits h u
    ∃ (p₁ : Processor σ) (out : RoundOutput), p₀.round h u [] = (p₁, .ok out) ∧
      report.rounds = (if out.madeProgress then 2 else 1) ∧
      (∀ n, 2 ≤ n → ∀ start, Processor.rounds h u n [] p₀ start =
        Processor.rounds h u maxRounds [] p₀ start) ∧
      (visits.map (·.name)).Nodup ∧
      (∀ v ∈ visits, v.places.count true = 1 ∧ v.fate.IsOf v.name) ∧
      report.generated = visits.filterMap (·.record?) ∧
      report.aborted = (visits.filterMap (·.abortion?)).map (·.message) ∧
      report.writeFailures = (visits.filterMap (·.refusal?)).map (·.message) ∧
      report.deferred = (out.deferred.filter fun s =>
        !p₁.tracker.isProcessed s.declaration.qualifiedName).map DeferredService.line ∧
      report.parseFailures = failures ∧
      q.tracker = p₁.tracker ∧
      ∃ q', q.runToFixpoint h u = (q', .ok ⟨1, [], report.deferred, [], [], failures⟩) ∧
        q.Idled h q' := by
  intro failures p₀ visits
  obtain ⟨p₁, out, hround⟩ := Processor.first_round_of_fixpoint hrun
  obtain ⟨q₀, hidle, hrounds⟩ := Processor.rounds_two hround (Processor.startReport u)
  obtain ⟨s, hs, hrun'⟩ := Processor.fixpoint_of_rounds (hrounds 14)
  obtain ⟨rfl, hreport⟩ := Prod.mk.inj (hrun.symm.trans hrun')
  obtain rfl := Except.ok.inj hreport
  have hq : Processor.Idled h p₁ q := hidle.trans hs
  obtain ⟨q', hq', hagain⟩ :=
    Processor.fixpoint_idle (h := h) (hq.isSettled (Processor.round_settles hround))
  obtain ⟨hgenerated, haborted, hfailed⟩ := Processor.round_reports_settled hround
  rw [hq.waiting] at hagain
  have hvisits : ∀ v ∈ visits, v.places.count true = 1 ∧ v.fate.IsOf v.name := by
    intro v hv
    have hmem := (List.mem_filter.1 hv).1
    exact ⟨Visit.count_places ((Processor.round_ok.1 (congrArg Prod.snd hround)).1 v hmem),
      Processor.visit_isOf hmem⟩
  refine ⟨p₁, out, hround, Nat.zero_add _, fun n hn start => ?_, p₀.settledVisits_names u, hvisits,
    hgenerated, congrArg (List.map _) haborted, congrArg (List.map _) hfailed, ?_, rfl, hq.tracker,
    q', hagain, hq'⟩
  · obtain ⟨q₁, -, hbound⟩ := Processor.rounds_two hround start
    obtain ⟨m, rfl⟩ := Nat.exists_eq_add_of_le' hn
    rw [hbound, show maxRounds = 14 + 2 from rfl, hbound]
  · rw [Processor.round_waiting hround]

/-- One service in two copies, the first of which waits for a type, another one that waits for it,
and one that cannot be shared. -/
def unevenCopies : Universe :=
  let content := [
    markedTrait "Twice" ["Send", "Sync"] [getter "get" "Missing"],
    markedTrait "Twice" ["Send", "Sync"] [],
    markedTrait "Late" ["Send", "Sync"] [getter "get" "Missing"],
    markedTrait "Alone" [] []]
  ⟨[⟨⟨"api.rs"⟩, modulePath ⟨"api.rs"⟩, ⟨content.map .trait⟩⟩], []⟩

/-- The report of a run over `unevenCopies`. -/
def unevenReport : BuildReport where
  rounds := 2
  generated :=
    [⟨"crate::api::Twice", "TwiceDslExtensions", ⟨"api/twice_dsl_extensions.rs"⟩, true⟩]
  deferred := [("crate::api::Late", ["Missing"])]
  aborted :=
    ["generation aborted for crate::api::Alone: service traits must require `Send + Sync` to be " ++
      "shared through a service handle"]
  writeFailures := []
  parseFailures := []

/-- A run over `unevenCopies` and the run after it. -/
theorem copies_reach_fixpoint :
    ∃ (q q' : Processor Recording),
      (Processor.start .default (.start none)).runToFixpoint Recording.host unevenCopies =
        (q, .ok unevenReport) ∧
      q.runToFixpoint Recording.host unevenCopies =
        (q', .ok ⟨1, [], [("crate::api::Late", ["Missing"])], [], [], []⟩) ∧
      q'.tracker = q.tracker := by
  have hreport : ((Processor.start .default (.start none)).runToFixpoint Recording.host
      unevenCopies).2.toOption = some unevenReport := by decide +kernel
  generalize hq : (Processor.start .default (.start none)).runToFixpoint Recording.host
    unevenCopies = run at hreport
  obtain ⟨q, _ | report⟩ := run
  · cases hreport
  · obtain rfl := Option.some.inj hreport
    obtain ⟨_, _, -, -, -, -, -, -, -, -, -, -, -, q', hagain, hidle⟩ :=
      fixpoint_in_two_rounds Recording.host unevenCopies _ q unevenReport hq
    exact ⟨q, q', rfl, hagain, hidle.tracker⟩

end WrapperGen
