import WrapperGen.Calls.Machine
/-!
# Runs to the end

* `step_atop`: a step does not look at the frames below the top one.
* `weight_step_lt`: every step makes the machine lighter, so a run ends with an empty stack
  (`run_stack`).
* `run_atop`: what runs on top of other frames runs as it would alone, and then they go on.
-/

namespace WrapperGen.Calls.Machine

variable {S α : Type}

/-! ## Frames below -/

/-- The machine with more frames below its own. -/
def atop (m : Machine S α) (fs : List (Frame S α)) : Machine S α :=
  { m with stack := m.stack ++ fs }

section

variable (m : Machine S α) (fs : List (Frame S α))

@[simp] theorem atop_nil : m.atop [] = m := by
  rw [atop, List.append_nil]

theorem atop_atop (gs : List (Frame S α)) : (m.atop fs).atop gs = m.atop (fs ++ gs) := by
  rw [atop, atop, atop, List.append_assoc]

theorem push_atop (f : Frame S α) : (m.atop fs).push f = (m.push f).atop fs := rfl

theorem signal_atop (on : Bool) : (m.atop fs).signal on = (m.signal on).atop fs := by
  unfold signal
  split <;> rename_i h
  · rw [if_pos (by exact h)]
    rfl
  · rw [if_neg (by exact h)]

theorem deliver_atop (k : Option Nat) (h : Handlers S α) (o : Outcome α) :
    (m.atop fs).deliver k h o = (m.deliver k h o).atop fs := by
  unfold deliver
  split <;> rfl

theorem complete_atop (k : Nat) (o : Outcome α) :
    (m.atop fs).complete k o = (m.complete k o).atop fs := by
  unfold complete
  rw [show (m.atop fs).shared = m.shared from rfl]
  split
  · exact deliver_atop { m with shared := _ } fs _ _ _
  · rfl

theorem tryComplete_atop (k : Nat) (o : Outcome α) :
    (m.atop fs).tryComplete k o = (m.tryComplete k o).atop fs := by
  unfold tryComplete
  rw [show (m.atop fs).held? k = m.held? k from rfl]
  split
  · rw [push_atop, complete_atop]
  · rfl
  · rfl

theorem dispatch_atop (k : Nat) (s : S) (method : Method S α) :
    (m.atop fs).dispatch k s method = (m.dispatch k s method).atop fs := by
  cases method with
  | call run =>
    simp only [dispatch]
    cases run s with
    | error p => exact complete_atop m fs _ _
    | ok c =>
      simp only
      cases c.delivery with
      | now a => exact complete_atop (m.push _) fs _ _
      | later a => rfl
      | never => rfl
  | response run => exact complete_atop m fs _ _
  | bare run => exact complete_atop m fs _ _
  | deferred run =>
    simp only [dispatch]
    rw [show (m.atop fs).hasRuntime = m.hasRuntime from rfl]
    split
    · rfl
    · exact complete_atop m fs _ _

theorem afterBlock_atop (h : Handlers S α) (i : Invocation S α) :
    (m.atop fs).afterBlock h i = (m.afterBlock h i).atop fs := by
  simp only [afterBlock]
  rw [show ((m.atop fs).share false h).context = (m.share false h).context from rfl,
    show (m.atop fs).shared = m.shared from rfl]
  cases (m.share false h).context.handle i.service with
  | error e => exact complete_atop (m.share false h) fs _ _
  | ok s => exact dispatch_atop (m.share false h) fs _ _ _

theorem perform_atop (i : Instr S α) : (m.atop fs).perform i = (m.perform i).atop fs := by
  cases i with
  | note _ | onSuccess _ _ | onFail _ _ | panic _ => rfl
  | invoke i block | guarded body =>
    simp only [perform]
    rw [signal_atop]
    rfl
  | complete k o => exact tryComplete_atop m fs k o
  | probe k =>
    simp only [perform]
    rw [show (m.atop fs).held? k = m.held? k from rfl]
    split <;> rfl
  | setClient r =>
    simp only [perform]
    rw [show (m.atop fs).context = m.context from rfl]
    split <;> rfl
  | service name block =>
    simp only [perform]
    rw [show (m.atop fs).context = m.context from rfl]
    split <;> rfl
  | serviceHandle name =>
    simp only [perform]
    rw [show (m.atop fs).context = m.context from rfl]
    split <;> rfl

theorem resume_atop (f : Frame S α) : (m.atop fs).resume f = (m.resume f).atop fs := by
  cases f with
  | code rest =>
    cases rest with
    | nil => rfl
    | cons i is => exact perform_atop (m.push (.code is)) fs i
  | block rest h i =>
    cases rest with
    | nil => exact afterBlock_atop m fs h i
    | cons step is =>
      simp only [resume]
      split
      · rfl
      · exact perform_atop (m.push (.block is h i)) fs step
  | boundary k panic =>
    cases panic with
    | none => rfl
    | some p => exact complete_atop m fs k _
  | won | found => rfl
  | busy => exact signal_atop m fs false

theorem unwind_atop (p : Panic) (f : Frame S α) :
    (m.atop fs).unwind p f = (m.unwind p f).atop fs := by
  cases f with
  | code _ | block _ _ _ | won | found => rfl
  | boundary k _ => exact complete_atop { m with unwinding := none } fs k _
  | busy => exact signal_atop m fs false

/-- A step does not look at the frames below the top one. -/
theorem step_atop (h : m.stack ≠ []) : (m.atop fs).step = m.step.atop fs := by
  obtain ⟨context, ambient, shared, stack, unwinding, trace, tasks⟩ := m
  cases stack with
  | nil => exact absurd rfl h
  | cons f gs =>
    cases unwinding with
    | none => exact resume_atop ⟨context, ambient, shared, gs, none, trace, tasks⟩ fs f
    | some p => exact unwind_atop ⟨context, ambient, shared, gs, some p, trace, tasks⟩ fs p f

end

/-! ## Weight -/

section

variable (m : Machine S α)

theorem weight_push (f : Frame S α) : (m.push f).weight = frameWeight f + m.weight := by
  simp only [weight, push, stackWeight]
  omega

@[simp] theorem weight_emit (e : Event α) : (m.emit e).weight = m.weight := rfl

@[simp] theorem weight_signal (on : Bool) : (m.signal on).weight = m.weight := by
  unfold signal
  split <;> rfl

theorem handlersWeight_append (cs ds : List (Shared S α)) :
    handlersWeight (cs ++ ds) = handlersWeight cs + handlersWeight ds := by
  induction cs with
  | nil => simp [handlersWeight]
  | cons c cs ih => simp only [List.cons_append, handlersWeight, ih]; omega

theorem weight_share (held : Bool) (h : Handlers S α) :
    (m.share held h).weight = m.weight + h.weight := by
  simp only [weight, share, handlersWeight_append, handlersWeight, sharedWeight]
  omega

/-- Completing a continuation frees the weight of its handlers. -/
theorem handlersWeight_set {cs : List (Shared S α)} {k : Nat} {held : Bool} {h : Handlers S α}
    (hk : cs[k]? = some ⟨held, .waiting h⟩) (o : Outcome α) :
    handlersWeight (cs.set k ⟨held, .completed o⟩) + h.weight = handlersWeight cs := by
  induction cs generalizing k with
  | nil => cases hk
  | cons c cs ih =>
    cases k with
    | zero =>
      obtain rfl : c = ⟨held, .waiting h⟩ := by simpa using hk
      simp only [List.set_cons_zero, handlersWeight, sharedWeight]
      omega
    | succ k =>
      have htail := ih (by simpa using hk)
      simp only [List.set_cons_succ, handlersWeight]
      omega

theorem Handlers.weight_of_for? {h : Handlers S α} {o : Outcome α} {handler : Handler S α}
    (hfor : h.for? o = some handler) : handler.weight ≤ h.weight := by
  cases o with
  | ok v =>
    simp only [Handlers.for?] at hfor
    simp only [Handlers.weight, hfor, Option.map_some, Option.getD_some]
    omega
  | error e =>
    simp only [Handlers.for?] at hfor
    simp only [Handlers.weight, hfor, Option.map_some, Option.getD_some]
    omega

theorem weight_deliver_le (k : Option Nat) (h : Handlers S α) (o : Outcome α) :
    (m.deliver k h o).weight ≤ m.weight + h.weight + 1 := by
  unfold deliver
  split
  · rename_i handler hfor
    have hle := Handlers.weight_of_for? hfor
    rw [Handler.weight] at hle
    rw [weight_push, weight_emit, frameWeight]
    omega
  · omega

theorem weight_complete_le (k : Nat) (o : Outcome α) : (m.complete k o).weight ≤ m.weight + 1 := by
  unfold complete
  split
  · rename_i held h hk
    have hset := handlersWeight_set hk o
    refine Nat.le_trans (weight_deliver_le _ _ _ _) ?_
    simp only [weight]
    omega
  · omega

theorem weight_tryComplete_le (k : Nat) (o : Outcome α) :
    (m.tryComplete k o).weight ≤ m.weight + 2 := by
  unfold tryComplete
  split
  · have hle := weight_complete_le (m.push .won) k o
    rw [weight_push, frameWeight] at hle
    omega
  · rw [weight_emit]
    omega
  · omega

theorem weight_spawn (k : Nat) (o : Outcome α) : (m.spawn k o).weight = m.weight + 2 := by
  simp only [weight, spawn, List.length_append, List.length_cons, List.length_nil]
  omega

theorem weight_dispatch_le (k : Nat) (s : S) (method : Method S α) :
    (m.dispatch k s method).weight ≤ m.weight + 4 := by
  cases method with
  | call run =>
    simp only [dispatch]
    cases run s with
    | error p => exact Nat.le_trans (weight_complete_le m k _) (by omega)
    | ok c =>
      simp only
      have hpush := weight_push m (.boundary k c.panic)
      rw [frameWeight] at hpush
      cases c.delivery with
      | now a => exact Nat.le_trans (weight_complete_le _ k _) (by omega)
      | later a =>
        rw [weight_spawn]
        omega
      | never =>
        simp only
        omega
  | response run => exact Nat.le_trans (weight_complete_le m k _) (by omega)
  | bare run => exact Nat.le_trans (weight_complete_le m k _) (by omega)
  | deferred run =>
    simp only [dispatch]
    split
    · rw [weight_spawn]
      omega
    · exact Nat.le_trans (weight_complete_le m k _) (by omega)

theorem weight_afterBlock_le (h : Handlers S α) (i : Invocation S α) :
    (m.afterBlock h i).weight ≤ m.weight + h.weight + 4 := by
  have hshare := weight_share m false h
  unfold afterBlock
  dsimp only
  split
  · exact Nat.le_trans (weight_complete_le _ _ _) (by omega)
  · exact Nat.le_trans (weight_dispatch_le _ _ _ _) (by omega)

theorem weight_perform_lt (i : Instr S α) : (m.perform i).weight < m.weight + i.weight := by
  cases i with
  | note _ =>
    simp only [perform, weight_emit, Instr.weight]
    omega
  | onSuccess _ _ | onFail _ _ =>
    simp only [perform, Instr.weight]
    omega
  | panic p =>
    rw [show (m.perform (.panic p)).weight = m.weight from rfl, Instr.weight]
    omega
  | invoke i block =>
    simp only [perform, weight_push, weight_signal, frameWeight, Instr.weight, Handlers.weight,
      Handlers.none, Option.map_none, Option.getD_none]
    omega
  | guarded body =>
    simp only [perform, weight_push, weight_signal, frameWeight, Instr.weight]
    omega
  | complete k o =>
    rw [Instr.weight]
    exact Nat.lt_of_le_of_lt (weight_tryComplete_le m k o) (by omega)
  | probe k =>
    simp only [perform, Instr.weight]
    split
    · rw [weight_emit]
      omega
    · omega
  | setClient r =>
    simp only [perform, Instr.weight]
    split
    · exact Nat.lt_succ_self m.weight
    · exact Nat.lt_succ_self m.weight
  | service name block =>
    simp only [perform, Instr.weight]
    split
    · simp only [weight_push, frameWeight]
      omega
    · rw [weight_emit]
      omega
  | serviceHandle name =>
    simp only [perform, Instr.weight]
    split <;> rw [weight_emit] <;> omega

theorem Handlers.weight_register {h h' : Handlers S α} {i : Instr S α}
    (hr : h.register? i = some h') : h'.weight < h.weight + i.weight := by
  cases i with
  | onSuccess tag code =>
    cases hr
    simp only [Handlers.weight, Handlers.onSuccess, Instr.weight, Option.map_some, Option.getD_some,
      Handler.weight]
    omega
  | onFail tag code =>
    cases hr
    simp only [Handlers.weight, Handlers.onFail, Instr.weight, Option.map_some, Option.getD_some,
      Handler.weight]
    omega
  | _ => cases hr

theorem weight_resume_lt (f : Frame S α) : (m.resume f).weight < frameWeight f + m.weight := by
  cases f with
  | code rest =>
    cases rest with
    | nil =>
      simp only [resume, frameWeight]
      omega
    | cons i is =>
      have hlt := weight_perform_lt (m.push (.code is)) i
      simp only [weight_push, frameWeight] at hlt
      simp only [resume, frameWeight, codeWeight]
      omega
  | block rest h i =>
    cases rest with
    | nil =>
      have hle := weight_afterBlock_le m h i
      simp only [resume, frameWeight, codeWeight]
      omega
    | cons step is =>
      simp only [resume, frameWeight, codeWeight]
      split
      · rename_i h' hr
        have hlt := Handlers.weight_register hr
        simp only [weight_push, frameWeight]
        omega
      · have hlt := weight_perform_lt (m.push (.block is h i)) step
        simp only [weight_push, frameWeight] at hlt
        omega
  | boundary k panic =>
    cases panic with
    | none =>
      simp only [resume, frameWeight]
      omega
    | some p =>
      have hle := weight_complete_le m k (.error (.ofPanic p))
      simp only [resume, frameWeight]
      omega
  | won | found =>
    simp only [resume, weight_emit, frameWeight]
    omega
  | busy =>
    simp only [resume, weight_signal, frameWeight]
    omega

theorem weight_unwind_lt (p : Panic) (f : Frame S α) :
    (m.unwind p f).weight < frameWeight f + m.weight := by
  cases f with
  | code _ | block _ _ _ | won | found =>
    simp only [unwind, frameWeight]
    omega
  | boundary k _ =>
    have hle := weight_complete_le { m with unwinding := none } k (.error (.ofPanic p))
    rw [show ({ m with unwinding := none } : Machine S α).weight = m.weight from rfl] at hle
    simp only [unwind, frameWeight]
    omega
  | busy =>
    simp only [unwind, weight_signal, frameWeight]
    omega

/-- Every step makes the machine lighter. -/
theorem weight_step_lt (h : m.stack ≠ []) : m.step.weight < m.weight := by
  obtain ⟨context, ambient, shared, stack, unwinding, trace, tasks⟩ := m
  cases stack with
  | nil => exact absurd rfl h
  | cons f fs =>
    have hpop : (⟨context, ambient, shared, f :: fs, unwinding, trace, tasks⟩ :
        Machine S α).weight =
        frameWeight f + (⟨context, ambient, shared, fs, unwinding, trace, tasks⟩ :
          Machine S α).weight :=
      weight_push ⟨context, ambient, shared, fs, unwinding, trace, tasks⟩ f
    rw [hpop]
    cases unwinding with
    | none => exact weight_resume_lt _ f
    | some p => exact weight_unwind_lt _ p f

end

/-! ## Runs -/

section

variable (m : Machine S α)

theorem step_of_stack_nil (h : m.stack = []) : m.step = m := by
  unfold step
  rw [h]

theorem steps_of_stack_nil (h : m.stack = []) (n : Nat) : steps n m = m := by
  induction n with
  | zero => rfl
  | succ n ih => rw [steps, step_of_stack_nil m h, ih]

theorem steps_add (n k : Nat) : steps (n + k) m = steps k (steps n m) := by
  induction n generalizing m with
  | zero => rw [Nat.zero_add, steps]
  | succ n ih => rw [Nat.add_right_comm, steps, ih, steps]

theorem steps_stack_nil {n : Nat} (h : m.weight ≤ n) : (steps n m).stack = [] := by
  induction n generalizing m with
  | zero =>
    by_cases hstack : m.stack = []
    · exact hstack
    · have hlt := weight_step_lt m hstack
      omega
  | succ n ih =>
    by_cases hstack : m.stack = []
    · rw [steps_of_stack_nil m hstack]
      exact hstack
    · have hlt := weight_step_lt m hstack
      exact ih m.step (by omega)

/-- A run ends with an empty stack. -/
@[simp] theorem run_stack : m.run.stack = [] := steps_stack_nil m (Nat.le_refl _)

theorem run_of_stack_nil (h : m.stack = []) : m.run = m := steps_of_stack_nil m h _

theorem steps_eq_run {n : Nat} (h : m.weight ≤ n) : steps n m = m.run := by
  obtain ⟨k, rfl⟩ := Nat.exists_eq_add_of_le h
  rw [steps_add]
  exact steps_of_stack_nil _ (run_stack m) k

theorem run_step : m.step.run = m.run := by
  by_cases hstack : m.stack = []
  · rw [step_of_stack_nil m hstack]
  · have hlt := weight_step_lt m hstack
    obtain ⟨n, hn⟩ : ∃ n, m.weight = n + 1 := ⟨m.weight - 1, by omega⟩
    rw [← steps_eq_run m.step (n := n) (by omega)]
    unfold run
    rw [hn, steps]

theorem run_steps (n : Nat) : (steps n m).run = m.run := by
  induction n generalizing m with
  | zero => rfl
  | succ n ih => rw [steps, ih, run_step]

end

/-- What every step keeps is kept by runs. -/
theorem run_induction {P : Machine S α → Prop} (hstep : ∀ m : Machine S α, P m → P m.step)
    {m : Machine S α} (h : P m) : P m.run := by
  unfold run
  generalize m.weight = n
  induction n generalizing m with
  | zero => exact h
  | succ n ih => exact ih (hstep m h)

theorem weight_run_le (m : Machine S α) : m.run.weight ≤ m.weight := by
  refine run_induction (P := fun m' => m'.weight ≤ m.weight) (fun m' h => ?_) (Nat.le_refl _)
  by_cases hstack : m'.stack = []
  · rwa [step_of_stack_nil m' hstack]
  · have hlt := weight_step_lt m' hstack
    omega

/-- What runs on top of other frames runs as it would alone, and then they go on. -/
theorem steps_atop (m : Machine S α) (fs : List (Frame S α)) :
    ∃ n, steps n (m.atop fs) = m.run.atop fs := by
  generalize hw : m.weight = w
  induction w using Nat.strongRecOn generalizing m with
  | _ w ih =>
    by_cases hstack : m.stack = []
    · exact ⟨0, by rw [run_of_stack_nil m hstack, steps]⟩
    · have hlt := weight_step_lt m hstack
      obtain ⟨n, hn⟩ := ih _ (hw ▸ hlt) m.step rfl
      exact ⟨n + 1, by rw [steps, step_atop m fs hstack, hn, run_step]⟩

theorem run_atop (m : Machine S α) (fs : List (Frame S α)) :
    (m.atop fs).run = (m.run.atop fs).run := by
  obtain ⟨n, hn⟩ := steps_atop m fs
  rw [← run_steps (m.atop fs) n, hn]

end WrapperGen.Calls.Machine
