import WrapperGen.Proofs.Rounds.Units
/-!
# Visits in the order of time

* `handle_cases`: everything that handling one marked trait can do (`Handling`).
* `Trail`: a processor that handles marked traits one after the other and logs in between. What
  holds along every trail holds of every round and every run, since a request leaves a trail
  (`Request.serveAll_trail`).
-/

namespace WrapperGen

theorem Tracker.isProcessed_iff {t : Tracker} {name : String} :
    t.isProcessed name ↔ name ∈ t.processed := by
  simp [isProcessed]

theorem Tracker.takeUp_of_not_mem {t : Tracker} {name : String} (h : name ∉ t.processed) :
    t.takeUp name = (⟨name :: t.processed⟩, true) := by
  have hp : ¬ t.isProcessed name := fun hp => h (isProcessed_iff.1 hp)
  simp [takeUp, hp]

namespace Processor

variable {σ : Type} (h : Host σ)

@[simp] theorem log_tracker (p : Processor σ) (level : Level) (message : String) :
    (p.log h level message).tracker = p.tracker := rfl

@[simp] theorem log_config (p : Processor σ) (level : Level) (message : String) :
    (p.log h level message).config = p.config := rfl

@[simp] theorem log_world (p : Processor σ) (level : Level) (message : String) :
    (p.log h level message).world = h.log ⟨level, message⟩ p.world := rfl

/-! ## One trait -/

/-- The processor that took up a service. -/
def taking (p : Processor σ) (d : Declared) : Processor σ :=
  { p with tracker := ⟨d.qualifiedName :: p.tracker.processed⟩ }

/-- Whether a service is new and has no unknown types. -/
structure IsReady (p : Processor σ) (r : Resolver) (d : Declared) : Prop where
  new : d.qualifiedName ∉ p.tracker.processed
  resolved : unresolvedIn p.config r d = []

/-- A trait that is ready is taken up and generated. -/
theorem handle_of_ready {p : Processor σ} {r : Resolver} {d : Declared} (hready : p.IsReady r d) :
    p.handle h r d = (p.taking d).generate h r d := by
  have hp : ¬ p.tracker.isProcessed d.qualifiedName := fun hp =>
    hready.new (Tracker.isProcessed_iff.1 hp)
  simp [handle, hp, hready.resolved, Tracker.takeUp_of_not_mem hready.new, taking]

/-- What handling a trait can do. -/
inductive Handling (p : Processor σ) (r : Resolver) (d : Declared) : Processor σ × Fate → Prop
  | skipped (known : d.qualifiedName ∈ p.tracker.processed) : Handling p r d (p, .skipped)
  | deferred (new : d.qualifiedName ∉ p.tracker.processed) {names : List String}
      (unresolved : unresolvedIn p.config r d = names) (some : names ≠ []) :
      Handling p r d (p.log h .warn (deferredMessage d names), .deferred names)
  | panicked (ready : p.IsReady r d) {text : String}
      (unit : unitOf p.config r d = .error (.panic text)) :
      Handling p r d (p.taking d, .panicked text)
  | aborted (ready : p.IsReady r d) {f : Failure}
      (unit : unitOf p.config r d = .error (.failure f)) :
      Handling p r d ((p.taking d).log h .error f.message, .aborted f)
  | unwritten (ready : p.IsReady r d) {u : GeneratedUnit} (unit : unitOf p.config r d = .ok u)
      {w : σ} {f : Failure} (refused : h.write u.toText p.world = (w, .error f)) :
      Handling p r d ({ p.taking d with world := w }.log h .error f.message, .unwritten f)
  | generated (ready : p.IsReady r d) {u : GeneratedUnit} (unit : unitOf p.config r d = .ok u)
      {w : σ} {o : WriteOutcome} (accepted : h.write u.toText p.world = (w, .ok o)) :
      Handling p r d
        ({ p.taking d with world := w }.log h .info (writtenMessage u o), .generated u o)

theorem handle_cases (p : Processor σ) (r : Resolver) (d : Declared) :
    Handling h p r d (p.handle h r d) := by
  by_cases hp : p.tracker.isProcessed d.qualifiedName
  · rw [show p.handle h r d = (p, .skipped) by simp [handle, hp]]
    exact .skipped (Tracker.isProcessed_iff.1 hp)
  have hnew : d.qualifiedName ∉ p.tracker.processed := fun hm => hp (Tracker.isProcessed_iff.2 hm)
  cases hu : unresolvedIn p.config r d with
  | cons name names =>
    rw [show p.handle h r d = (p.log h .warn (deferredMessage d (name :: names)),
      .deferred (name :: names)) by simp [handle, hp, hu]]
    exact .deferred hnew hu (List.cons_ne_nil _ _)
  | nil =>
    have hready : p.IsReady r d := ⟨hnew, hu⟩
    rw [handle_of_ready h hready]
    unfold generate
    split
    · rename_i hunit
      exact .panicked hready hunit
    · rename_i hunit
      exact .aborted hready hunit
    · rename_i u hunit
      cases hw : h.write u.toText p.world with
      | mk w result =>
        cases result with
        | error f =>
          rw [show (p.taking d).writeUnit h u =
            ({ p.taking d with world := w }.log h .error f.message, .unwritten f) by
            simp [writeUnit, show (p.taking d).world = p.world from rfl, hw]]
          exact .unwritten hready hunit hw
        | ok o =>
          rw [show (p.taking d).writeUnit h u =
            ({ p.taking d with world := w }.log h .info (writtenMessage u o), .generated u o) by
            simp [writeUnit, show (p.taking d).world = p.world from rfl, hw]]
          exact .generated hready hunit hw

theorem handle_config (p : Processor σ) (r : Resolver) (d : Declared) :
    (p.handle h r d).1.config = p.config := by
  have hc := handle_cases h p r d
  generalize p.handle h r d = x at hc ⊢
  cases hc <;> rfl

end Processor

/-! ## Trails -/

/-- A visit, with the processor before and after it. -/
structure Point (σ : Type) where
  visit : Visit
  before : Processor σ
  after : Processor σ

namespace Point

variable {σ : Type}

def name (x : Point σ) : String := x.visit.declaration.qualifiedName

def fate (x : Point σ) : Fate := x.visit.fate

/-- The point at which a processor handles a trait. -/
def of (h : Host σ) (p : Processor σ) (r : Resolver) (d : Declared) : Point σ :=
  ⟨⟨d, (p.handle h r d).2⟩, p, (p.handle h r d).1⟩

end Point

inductive Trail {σ : Type} (h : Host σ) : Processor σ → List (Point σ) → Processor σ → Prop
  | nil (p : Processor σ) : Trail h p [] p
  | log {p q : Processor σ} {xs : List (Point σ)} (level : Level) (message : String) :
      Trail h (p.log h level message) xs q → Trail h p xs q
  | visit {p q : Processor σ} {xs : List (Point σ)} (r : Resolver) (d : Declared) :
      Trail h (p.handle h r d).1 xs q → Trail h p (.of h p r d :: xs) q

namespace Trail

variable {σ : Type} {h : Host σ}

theorem append {p q s : Processor σ} {xs ys : List (Point σ)} (hx : Trail h p xs q)
    (hy : Trail h q ys s) : Trail h p (xs ++ ys) s := by
  induction hx with
  | nil => exact hy
  | log level message _ ih => exact .log level message (ih hy)
  | visit r d _ ih => exact .visit r d (ih hy)

theorem thenLog {p q : Processor σ} {xs : List (Point σ)} (ht : Trail h p xs q) (level : Level)
    (message : String) : Trail h p xs (q.log h level message) := by
  have hlog := ht.append (.log level message (.nil (q.log h level message)))
  rwa [List.append_nil] at hlog

theorem thenLogAll {p q : Processor σ} {xs : List (Point σ)} (ht : Trail h p xs q) (level : Level)
    (messages : List String) : Trail h p xs (q.logAll h level messages) := by
  induction messages generalizing q with
  | nil => exact ht
  | cons m ms ih => exact ih (ht.thenLog level m)

/-- The part of a trail before a point, the point, and the part after it. -/
theorem split {p q : Processor σ} {xs ys : List (Point σ)} {x : Point σ}
    (ht : Trail h p (xs ++ x :: ys) q) :
    ∃ r d, x = .of h x.before r d ∧ Trail h p xs x.before ∧ Trail h x.after ys q := by
  generalize hzs : xs ++ x :: ys = zs at ht
  induction ht generalizing xs with
  | nil => cases xs <;> cases hzs
  | log level message _ ih =>
    obtain ⟨r, d, hx, hxs, hys⟩ := ih hzs
    exact ⟨r, d, hx, .log level message hxs, hys⟩
  | visit r d htail ih =>
    cases xs with
    | nil =>
      obtain ⟨rfl, rfl⟩ := List.cons.inj hzs
      exact ⟨r, d, rfl, .nil _, htail⟩
    | cons y xs =>
      obtain ⟨rfl, htail⟩ := List.cons.inj hzs
      obtain ⟨r', d', hx, hxs, hys⟩ := ih htail
      exact ⟨r', d', hx, .visit r d hxs, hys⟩

theorem config {p q : Processor σ} {xs : List (Point σ)} (ht : Trail h p xs q) :
    q.config = p.config := by
  induction ht with
  | nil => rfl
  | log _ _ _ ih => exact ih
  | visit r d _ ih => exact ih.trans (Processor.handle_config h _ r d)

end Trail

/-! ## Rounds and runs -/

namespace Processor

variable {σ : Type} (h : Host σ)

def historyOf (r : Resolver) : List Declared → Processor σ → List (Point σ)
  | [], _ => []
  | d :: ds, p =>
    .of h p r d :: if (p.handle h r d).2.isPanic then [] else historyOf r ds (p.handle h r d).1

theorem historyOf_visits (r : Resolver) (ds : List Declared) (p : Processor σ) :
    (historyOf h r ds p).map (·.visit) = (p.handleAll h r ds).2 := by
  induction ds generalizing p with
  | nil => rfl
  | cons d ds ih =>
    simp only [historyOf, handleAll, Point.of, List.map_cons]
    split
    · rfl
    · rw [ih]

theorem historyOf_trail (r : Resolver) (ds : List Declared) (p : Processor σ) :
    Trail h p (historyOf h r ds p) (p.handleAll h r ds).1 := by
  induction ds generalizing p with
  | nil => exact .nil _
  | cons d ds ih =>
    simp only [historyOf, handleAll]
    split
    · exact .visit r d (.nil _)
    · exact .visit r d (ih (p.handle h r d).1)

/-- The points of a round. -/
def roundHistory (u : Universe) (p : Processor σ) : List (Point σ) :=
  historyOf h (.ofUniverse u) (scan u p.config.marker) p

/-- A round reports the visits of its history. -/
theorem round_report (u : Universe) (retried : List String) (p : Processor σ) :
    (p.round h u retried).2 = RoundOutput.ofVisits ((roundHistory h u p).map (·.visit)) := by
  rw [roundHistory, historyOf_visits]
  unfold round visit
  dsimp only
  split
  · rename_i hv; exact hv.symm
  · rename_i hv; split <;> exact hv.symm

theorem roundHistory_trail (u : Universe) (retried : List String) (p : Processor σ) :
    Trail h p (roundHistory h u p) (p.round h u retried).1 := by
  have ht : Trail h p (roundHistory h u p) (p.visit h u).1 := historyOf_trail h _ _ p
  unfold round
  dsimp only
  split
  · exact ht
  · split
    · exact ht.thenLog .debug _
    · exact ht

/-- The points of repeated rounds. -/
def roundsHistory (u : Universe) : Nat → List String → Processor σ → List (Point σ)
  | 0, _, _ => []
  | n + 1, retried, p =>
    roundHistory h u p ++
      match p.round h u retried with
      | (_, .error _) => []
      | (p, .ok out) => if out.madeProgress then roundsHistory u n out.deferredNames p else []

theorem roundsHistory_trail (u : Universe) (n : Nat) (retried : List String) (p : Processor σ)
    (report : BuildReport) :
    Trail h p (roundsHistory h u n retried p) (rounds h u n retried p report).1 := by
  induction n generalizing retried p report with
  | zero => exact .nil _
  | succ n ih =>
    have hround := roundHistory_trail h u retried p
    unfold roundsHistory rounds
    cases hr : p.round h u retried with
    | mk q answer =>
      rw [hr] at hround
      cases answer with
      | error text => exact hround.append (.nil _)
      | ok out =>
        refine hround.append ?_
        dsimp only
        split
        · exact ih out.deferredNames q (report.absorb out)
        · exact .nil _

/-- The points of a run to the fixpoint. -/
def fixpointHistory (u : Universe) (p : Processor σ) : List (Point σ) :=
  roundsHistory h u maxRounds [] (p.logAll h .warn (u.failures.map (·.message)))

theorem fixpointHistory_trail (u : Universe) (p : Processor σ) :
    Trail h p (fixpointHistory h u p) (p.runToFixpoint h u).1 := by
  have hrounds := ((Trail.nil p).thenLogAll .warn (u.failures.map (·.message))).append
    (roundsHistory_trail h u maxRounds [] (p.logAll h .warn (u.failures.map (·.message)))
      ⟨0, [], [], [], [], u.failures.map (·.message)⟩)
  rw [List.nil_append] at hrounds
  unfold runToFixpoint
  dsimp only
  split
  · rename_i hr
    rw [hr] at hrounds
    exact hrounds
  · rename_i q report hr
    rw [hr] at hrounds
    exact hrounds.thenLogAll .warn _

end Processor

/-! ## Requests -/

/-- What a processor is asked for. -/
inductive Request
  | round (u : Universe) (retried : List String)
  | fixpoint (u : Universe)

namespace Request

variable {σ : Type} (h : Host σ)

/-- The processor after a request, even if a visit ended with a panic, and the points of it. -/
def serve (p : Processor σ) : Request → Processor σ × List (Point σ)
  | round u retried => ((p.round h u retried).1, p.roundHistory h u)
  | fixpoint u => ((p.runToFixpoint h u).1, p.fixpointHistory h u)

def serveAll (p : Processor σ) : List Request → Processor σ × List (Point σ)
  | [] => (p, [])
  | q :: qs =>
    let (p, xs) := q.serve h p
    let (p, ys) := serveAll p qs
    (p, xs ++ ys)

theorem serve_trail (p : Processor σ) (q : Request) :
    Trail h p (q.serve h p).2 (q.serve h p).1 := by
  cases q with
  | round u retried => exact p.roundHistory_trail h u retried
  | fixpoint u => exact p.fixpointHistory_trail h u

theorem serveAll_trail (p : Processor σ) (qs : List Request) :
    Trail h p (serveAll h p qs).2 (serveAll h p qs).1 := by
  induction qs generalizing p with
  | nil => exact .nil _
  | cons q qs ih => exact (serve_trail h p q).append (ih (q.serve h p).1)

end Request

end WrapperGen
