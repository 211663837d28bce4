import WrapperGen.Proofs.Calls.Brackets
/-!
# Sessions

Between runs, new code can be run, continuations can be shared or completed, and the tasks run in
any order.

* `Later`: one state of a machine after another, whatever happens in between. Runs, tasks and
  draining lead to later states (`execute_later`, `runTask_later`, `drain_later`).
* `drain_tasks`: draining leaves no task.
* `later_bracketed`: the signals of a session.
-/

namespace WrapperGen.Calls.Machine

variable {S α : Type}

/-- The machine without a task, inside the runtime. -/
def takeTask (m : Machine S α) (n : Nat) : Machine S α :=
  { m with tasks := m.tasks.eraseIdx n, stack := [], unwinding := none, ambient := true }

/-- The machine when a task begins. -/
def beginTask (m : Machine S α) (n : Nat) (t : Task α) : Machine S α :=
  (m.takeTask n).complete t.continuation t.outcome

/-- What can happen next. -/
inductive Next : Machine S α → Machine S α → Prop
  | step (m : Machine S α) : Next m m.step
  | execute {m : Machine S α} (code : Code S α) (idle : m.stack = []) :
      Next m { m with stack := [.code code], unwinding := none }
  | owned {m : Machine S α} (h : Handlers S α) (o : Outcome α) (idle : m.stack = []) :
      Next m ({ m with stack := [], unwinding := none }.deliver none h o)
  | share {m : Machine S α} (h : Handlers S α) (idle : m.stack = []) : Next m (m.share true h)
  | task {m : Machine S α} {n : Nat} {t : Task α} (idle : m.stack = [])
      (task : m.tasks[n]? = some t) : Next m (m.beginTask n t)
  /-- A task ends, or code enters or leaves the runtime. -/
  | leave {m : Machine S α} (ambient : Bool) (idle : m.stack = []) :
      Next m { m with unwinding := none, ambient := ambient }

def Later (m m' : Machine S α) : Prop := Relation.ReflTransGen Next m m'

variable {m m' m'' : Machine S α}

theorem Later.refl (m : Machine S α) : Later m m := Relation.ReflTransGen.refl

theorem Later.trans (h : Later m m') (h' : Later m' m'') : Later m m'' :=
  Relation.ReflTransGen.trans h h'

theorem Next.later (h : Next m m') : Later m m' := Relation.ReflTransGen.single h

theorem steps_later (n : Nat) (m : Machine S α) : Later m (steps n m) := by
  induction n generalizing m with
  | zero => exact .refl m
  | succ n ih => exact (Next.step m).later.trans (ih m.step)

theorem run_later (m : Machine S α) : Later m m.run := steps_later _ m

theorem execute_later (code : Code S α) (idle : m.stack = []) : Later m (m.execute code) :=
  (Next.execute code idle).later.trans (run_later _)

theorem completeOwned_later (h : Handlers S α) (o : Outcome α) (idle : m.stack = []) :
    Later m (m.completeOwned h o) :=
  (Next.owned h o idle).later.trans (run_later _)

/-! ## Tasks -/

@[simp] theorem runTask_stack (n : Nat) (idle : m.stack = []) : (m.runTask n).stack = [] := by
  unfold runTask
  split
  · exact idle
  · exact run_stack _

theorem runTask_later (n : Nat) (idle : m.stack = []) : Later m (m.runTask n) := by
  unfold runTask
  split
  · exact .refl m
  · rename_i t ht
    exact ((Next.task idle ht).later.trans (run_later _)).trans
      (Next.leave m.ambient (run_stack _)).later

theorem runTasks_later (n : Nat) (idle : m.stack = []) : Later m (runTasks n m) := by
  induction n generalizing m with
  | zero => exact .refl m
  | succ n ih => exact (runTask_later 0 idle).trans (ih (runTask_stack 0 idle))

theorem drain_later (idle : m.stack = []) : Later m m.drain := runTasks_later _ idle

/-- Running a task makes the machine lighter. -/
theorem weight_runTask_lt (idle : m.stack = []) (h : m.tasks ≠ []) :
    (m.runTask 0).weight < m.weight := by
  obtain ⟨context, ambient, shared, stack, unwinding, trace, tasks⟩ := m
  cases tasks with
  | nil => exact absurd rfl h
  | cons t ts =>
    let began : Machine S α := ⟨context, true, shared, [], none, trace, ts⟩
    have hcomplete := weight_complete_le began t.continuation t.outcome
    have hrun := weight_run_le (began.complete t.continuation t.outcome)
    have hbegan : began.weight + 2 =
        (⟨context, ambient, shared, stack, unwinding, trace, t :: ts⟩ : Machine S α).weight := by
      rw [show stack = [] from idle]
      simp only [began, weight, List.length_cons]
      omega
    show (began.complete t.continuation t.outcome).run.weight < _
    omega

theorem runTasks_of_tasks_nil (h : m.tasks = []) (n : Nat) : runTasks n m = m := by
  induction n with
  | zero => rfl
  | succ n ih =>
    have hnone : m.runTask 0 = m := by
      unfold runTask
      rw [h]
      rfl
    rw [runTasks, hnone, ih]

/-- Draining leaves no task. -/
theorem drain_tasks (idle : m.stack = []) : m.drain.tasks = [] := by
  suffices h : ∀ (n : Nat) (m : Machine S α), m.stack = [] → m.weight ≤ n →
      (runTasks n m).tasks = [] from h _ m idle (Nat.le_refl _)
  intro n
  induction n with
  | zero =>
    intro m _ hweight
    simp only [weight] at hweight
    exact List.length_eq_zero_iff.1 (by rw [runTasks]; omega)
  | succ n ih =>
    intro m idle hweight
    by_cases htasks : m.tasks = []
    · rw [runTasks_of_tasks_nil htasks]
      exact htasks
    · have hlt := weight_runTask_lt idle htasks
      exact ih (m.runTask 0) (runTask_stack 0 idle) (by omega)

theorem runTasks_stack (n : Nat) (idle : m.stack = []) : (runTasks n m).stack = [] := by
  induction n generalizing m with
  | zero => exact idle
  | succ n ih => exact ih (runTask_stack 0 idle)

theorem drain_stack (idle : m.stack = []) : m.drain.stack = [] := runTasks_stack _ idle

/-! ## Signals -/

theorem next_bracketed (h : Next m m') : Bracketed m m' := by
  cases h with
  | step => exact (step_moves m).bracketed
  | execute code idle => exact .of_eq rfl rfl (by rw [idle]; rfl)
  | owned handlers o idle =>
    have hidle : Bracketed m { m with stack := [], unwinding := none } :=
      .of_eq rfl rfl (by rw [idle])
    exact hidle.trans (deliver_bracketed none handlers o)
  | share handlers idle => exact .of_eq rfl rfl rfl
  | @task n t idle ht =>
    have htake : Bracketed m (m.takeTask n) := .of_eq rfl rfl (by rw [idle, takeTask])
    exact htake.trans (complete_bracketed _ _)
  | leave ambient idle => exact .of_eq rfl rfl rfl

theorem later_bracketed (h : Later m m') : Bracketed m m' := by
  induction h with
  | refl => exact .refl m
  | tail _ hnext ih => exact ih.trans (next_bracketed hnext)

/-- Whenever nothing runs, the signals of a session are a bracket word. -/
theorem later_balanced {c : Context S} {ambient : Bool} (h : Later (start c ambient) m)
    (idle : m.stack = []) : Balanced m.signals := by
  obtain ⟨w, hw, hsignals⟩ := (later_bracketed h).balanced rfl (by rw [idle]; rfl)
  rwa [hsignals]

end WrapperGen.Calls.Machine
