import WrapperGen.Proofs.Calls.Sessions
import WrapperGen.Proofs.Calls.Slots
/-!
# What a wrapper does

A machine that calls a wrapper goes through these states, whatever is below on its stack
(`invoke_steps`):

* `blockEnd`: the block returned or panicked.
* `boundaryEnd`: the boundary around the dispatch ended, and there may be an outcome that the
  wrapper still has to deliver.
* `wrapperEnd`: the wrapper returned or unwinds.

`wrapper_signals_and_panics`: wrappers signal in brackets, and unwind only with a panic of their
block or of a handler that ran after the boundary.
-/

namespace WrapperGen.Calls

/-- Whether the value of a method may come after its wrapper has returned. -/
def Method.isLate {S α : Type} : Method S α → Bool
  | .call _ | .deferred _ => true
  | .response _ | .bare _ => false

namespace Machine

variable {S α : Type}

/-! ## Single steps -/

section

variable {m : Machine S α} (f : Frame S α) (fs : List (Frame S α))

theorem atop_cons (h : m.stack = []) : m.atop (f :: fs) = (m.push f).atop fs := by
  simp [atop, push, h]

theorem step_push (h : m.unwinding = none) : (m.push f).step = m.resume f := by
  obtain ⟨context, ambient, shared, stack, unwinding, trace, tasks⟩ := m
  cases h
  rfl

theorem step_push_unwinding {p : Panic} (h : m.unwinding = some p) :
    (m.push f).step = m.unwind p f := by
  obtain ⟨context, ambient, shared, stack, unwinding, trace, tasks⟩ := m
  cases h
  rfl

theorem step_push_atop : ((m.push f).atop fs).step = (m.push f).step.atop fs :=
  step_atop _ fs (List.cons_ne_nil f m.stack)

/-- A guard signals the end of being busy, whether a panic takes it off the stack or not. -/
theorem step_guard : (m.push .busy).step = m.signal false := by
  cases hu : m.unwinding with
  | none => exact step_push .busy hu
  | some p => exact step_push_unwinding .busy hu

end

/-! ## The block -/

/-- The machine at the end of a block, and the handlers that were registered by then. -/
def blockEnd : Code S α → Handlers S α → Machine S α → Machine S α × Handlers S α
  | [], h, m => (m, h)
  | i :: is, h, m =>
    match h.register? i with
    | some h => blockEnd is h m
    | none =>
      let m := (m.perform i).run
      if m.unwinding.isSome then (m, h) else blockEnd is h m

/-- A block that returned is still on the stack; a panic takes it off. -/
def ended (b : Machine S α × Handlers S α) (i : Invocation S α) : Machine S α :=
  if b.1.unwinding.isSome then b.1 else b.1.push (.block [] b.2 i)

theorem blockEnd_stack {m : Machine S α} (idle : m.stack = []) (code : Code S α)
    (h : Handlers S α) : (blockEnd code h m).1.stack = [] := by
  fun_induction blockEnd code h m with
  | case1 => exact idle
  | case2 _ _ _ _ _ _ ih => exact ih idle
  | case3 => exact run_stack _
  | case4 _ _ _ _ _ _ _ ih => exact ih (run_stack _)

theorem block_steps {m : Machine S α} (idle : m.stack = []) (hm : m.unwinding = none)
    (code : Code S α) (h : Handlers S α) (i : Invocation S α) (fs : List (Frame S α)) :
    ∃ n, steps n ((m.push (.block code h i)).atop fs) = (ended (blockEnd code h m) i).atop fs := by
  induction code generalizing m h with
  | nil => exact ⟨0, by simp [steps, ended, blockEnd, hm]⟩
  | cons instr code ih =>
    have hstep : ((m.push (.block (instr :: code) h i)).atop fs).step =
        (m.resume (.block (instr :: code) h i)).atop fs := by
      rw [step_push_atop, step_push _ hm]
    rw [blockEnd]
    cases hr : h.register? instr with
    | some h' =>
      obtain ⟨n, hn⟩ := ih idle hm h'
      refine ⟨n + 1, ?_⟩
      rw [steps, hstep]
      simp only [resume, hr]
      exact hn
    | none =>
      have hperform : (m.resume (.block (instr :: code) h i)).atop fs =
          (m.perform instr).atop (.block code h i :: fs) := by
        have hpush : m.push (.block code h i) = m.atop [.block code h i] := by
          rw [atop_cons _ _ idle, atop_nil]
        simp only [resume, hr]
        rw [hpush, perform_atop, atop_atop]
        rfl
      obtain ⟨n, hn⟩ := steps_atop (m.perform instr) (.block code h i :: fs)
      have hidle := run_stack (m.perform instr)
      rw [atop_cons _ _ hidle] at hn
      cases hu : (m.perform instr).run.unwinding with
      | some p =>
        refine ⟨n + 1 + 1, ?_⟩
        rw [steps, hstep, hperform, steps_add, hn, steps, steps, step_push_atop,
          step_push_unwinding _ hu]
        simp [ended, hu, unwind]
      | none =>
        obtain ⟨k, hk⟩ := ih hidle hu h
        refine ⟨n + k + 1, ?_⟩
        rw [steps, hstep, hperform, steps_add, hn, hk]
        simp [hu]

/-! ## The whole wrapper -/

/-- The machine when a wrapper has returned or unwinds. -/
def wrapperEnd (m : Machine S α) (i : Invocation S α) (block : Code S α) : Machine S α :=
  let b := blockEnd block .none (m.signal true)
  if b.1.unwinding.isSome then b.1.signal false else (b.1.afterBlock b.2 i).run.signal false

theorem signal_unwinding (m : Machine S α) (on : Bool) : (m.signal on).unwinding = m.unwinding := by
  unfold signal
  split <;> rfl

/-- The block of a wrapper begins on top of nothing and ends so. -/
theorem wrapperBlock_stack {m : Machine S α} (idle : m.stack = []) (block : Code S α) :
    (blockEnd block .none (m.signal true)).1.stack = [] :=
  blockEnd_stack ((signal_stack true).trans idle) block .none

/-- The first steps of a wrapper lead to the end of its block. -/
theorem invoke_block_steps {m : Machine S α} (idle : m.stack = []) (hm : m.unwinding = none)
    (i : Invocation S α) (block : Code S α) (fs : List (Frame S α)) :
    ∃ n, steps n ((m.perform (.invoke i block)).atop fs) =
      (ended (blockEnd block .none (m.signal true)) i).atop (.busy :: fs) := by
  have hstart : (m.signal true).stack = [] := by rw [signal_stack, idle]
  obtain ⟨n, hn⟩ := block_steps hstart ((signal_unwinding m true).trans hm) block .none i
    (.busy :: fs)
  refine ⟨n, ?_⟩
  have hperform : (m.perform (.invoke i block)).atop fs =
      ((m.signal true).push (.block block .none i)).atop (.busy :: fs) := by
    simp [perform, atop, push, hstart]
  rw [hperform, hn]

/-! ## The boundary -/

/-- The machine when the boundary around the dispatch has ended, and the outcome that the wrapper
delivers after it. -/
def boundaryEnd (m : Machine S α) (h : Handlers S α) (i : Invocation S α) :
    Machine S α × Option (Outcome α) :=
  let k := m.shared.length
  let m := m.share false h
  match m.context.handle i.service with
  | .error e => (m, some (.error e))
  | .ok s =>
    match i.method with
    | .call run =>
      match run s with
      | .error p => (m, some (.error (.ofPanic p)))
      | .ok c =>
        match c.delivery with
        -- the handlers are gone when the boundary ends, whatever it ends with
        | .now a => ({ (m.complete k (settled a)).run with unwinding := none }, none)
        | .later a => (m.spawn k (settled a), c.panic.map fun p => .error (.ofPanic p))
        | .never => (m, c.panic.map fun p => .error (.ofPanic p))
    | .response run => (m, some (attempt ((run s).map (·.outcome))))
    | .bare run => (m, some (attempt ((run s).map .ok)))
    | .deferred run =>
      if m.hasRuntime then (m.spawn k (attempt ((run s).map .ok)), none)
      else (m, some (.error .noRuntime))

theorem complete_slot {m : Machine S α} {k : Nat} {held : Bool} {h : Handlers S α}
    (hk : m.shared[k]? = some ⟨held, .waiting h⟩) (o : Outcome α) :
    (m.complete k o).shared[k]? = some ⟨held, .completed o⟩ := by
  unfold complete
  rw [hk]
  dsimp only
  rw [deliver_shared]
  exact List.getElem?_set_self (List.getElem?_eq_some_iff.1 hk).1

theorem complete_isDone {m : Machine S α} {k : Nat} {held : Bool} {h : Handlers S α}
    (hk : m.shared[k]? = some ⟨held, .waiting h⟩) (o : Outcome α) : (m.complete k o).IsDone k :=
  ⟨held, o, complete_slot hk o⟩

theorem complete_of_isDone {m : Machine S α} {k : Nat} (h : m.IsDone k) (o : Outcome α) :
    m.complete k o = m := by
  obtain ⟨held, o', hk⟩ := h
  unfold complete
  rw [hk]

theorem share_slot (m : Machine S α) (held : Bool) (h : Handlers S α) :
    (m.share held h).shared[m.shared.length]? = some ⟨held, .waiting h⟩ :=
  List.getElem?_concat_length

/-- The end of a boundary keeps a panic from going further. Its continuation was completed inside,
so nothing else happens. -/
theorem step_boundary {m : Machine S α} {k : Nat} (hk : m.IsDone k) (panic : Option Panic) :
    (m.push (.boundary k panic)).step = { m with unwinding := none } := by
  cases hu : m.unwinding with
  | some p =>
    have hcaught : ({ m with unwinding := none } : Machine S α).IsDone k := hk
    rw [step_push_unwinding _ hu, unwind, complete_of_isDone hcaught]
  | none =>
    have hsame : ({ m with unwinding := none } : Machine S α) = m := by rw [← hu]
    rw [step_push _ hu, hsame]
    cases panic with
    | none => rfl
    | some p => rw [resume, complete_of_isDone hk]

/-- What is completed inside a boundary runs to its end before the boundary ends. -/
theorem inline_steps {m : Machine S α} (idle : m.stack = []) {k : Nat} {h : Handlers S α}
    (hslot : m.shared[k]? = some ⟨false, .waiting h⟩) (o : Outcome α) (panic : Option Panic)
    (fs : List (Frame S α)) :
    ∃ n, steps n (((m.push (.boundary k panic)).complete k o).atop fs) =
      ({ (m.complete k o).run with unwinding := none } : Machine S α).atop fs := by
  have hcomplete := complete_isDone hslot o
  have hdone : (m.complete k o).run.IsDone k :=
    ((run_moves _).spares (.inl hcomplete) (.inl hcomplete.lt)).isDone hcomplete
  have hpush : m.push (.boundary k panic) = m.atop [.boundary k panic] := by
    rw [atop_cons _ _ idle, atop_nil]
  obtain ⟨n, hn⟩ := steps_atop (m.complete k o) (.boundary k panic :: fs)
  refine ⟨n + 1, ?_⟩
  rw [hpush, complete_atop, atop_atop, List.singleton_append, steps_add, hn, steps, steps,
    atop_cons _ _ (run_stack _), step_push_atop, step_boundary hdone]

/-- The machine when a wrapper delivers what was left at the end of the boundary. -/
def delivered (m : Machine S α) (h : Handlers S α) (i : Invocation S α) : Machine S α :=
  match boundaryEnd m h i with
  | (m', none) => m'
  | (m', some o) => m'.complete m.shared.length o

/-- After the block a wrapper goes to the end of the boundary and delivers what is left. -/
theorem afterBlock_steps {m : Machine S α} (idle : m.stack = []) (hm : m.unwinding = none)
    (h : Handlers S α) (i : Invocation S α) (fs : List (Frame S α)) :
    ∃ n, steps n ((m.afterBlock h i).atop fs) = (delivered m h i).atop fs := by
  have hslot := share_slot m false h
  have idle' : (m.share false h).stack = [] := idle
  have hm' : (m.share false h).unwinding = none := hm
  simp only [afterBlock, delivered, boundaryEnd]
  generalize m.share false h = s at *
  generalize m.shared.length = k at *
  cases s.context.handle i.service with
  | error e => exact ⟨0, rfl⟩
  | ok service =>
    simp only
    cases i.method with
    | response run | bare run => exact ⟨0, rfl⟩
    | deferred run =>
      simp only [dispatch]
      split
      · exact ⟨0, rfl⟩
      · exact ⟨0, rfl⟩
    | call run =>
      simp only [dispatch]
      cases run service with
      | error p => exact ⟨0, rfl⟩
      | ok c =>
        simp only
        cases c.delivery with
        | now a =>
          exact inline_steps idle' hslot (settled a) c.panic fs
        | later a =>
          refine ⟨1, ?_⟩
          simp only
          rw [show (s.push (.boundary k c.panic)).spawn k (settled a) =
              (s.spawn k (settled a)).push (.boundary k c.panic) from rfl,
            steps, steps, step_push_atop, step_push (m := s.spawn k (settled a)) _ hm']
          cases c.panic <;> rfl
        | never =>
          refine ⟨1, ?_⟩
          simp only
          rw [steps, steps, step_push_atop, step_push _ hm']
          cases c.panic <;> rfl

theorem afterBlock_run {m : Machine S α} (idle : m.stack = []) (hm : m.unwinding = none)
    (h : Handlers S α) (i : Invocation S α) : (m.afterBlock h i).run = (delivered m h i).run := by
  obtain ⟨n, hn⟩ := afterBlock_steps idle hm h i []
  rw [atop_nil, atop_nil] at hn
  rw [← hn, run_steps]

/-- A wrapper whose block returned runs to the end of the boundary, whatever is below it. -/
theorem invoke_boundary_steps {m : Machine S α} (idle : m.stack = []) (hm : m.unwinding = none)
    (i : Invocation S α) (block : Code S α) (fs : List (Frame S α))
    (returned : (blockEnd block .none (m.signal true)).1.unwinding = none) :
    ∃ n, steps n ((m.perform (.invoke i block)).atop fs) =
      (delivered (blockEnd block .none (m.signal true)).1
        (blockEnd block .none (m.signal true)).2 i).atop (.busy :: fs) := by
  obtain ⟨n, hn⟩ := invoke_block_steps idle hm i block fs
  have hstack := wrapperBlock_stack idle block
  generalize blockEnd block .none (m.signal true) = b at *
  obtain ⟨k, hk⟩ := afterBlock_steps hstack returned b.2 i (.busy :: fs)
  have hended : ended b i = b.1.push (.block [] b.2 i) := by simp [ended, returned]
  refine ⟨n + (k + 1), ?_⟩
  rw [steps_add, hn, hended, steps, step_push_atop, step_push _ returned,
    show b.1.resume (.block [] b.2 i) = b.1.afterBlock b.2 i from rfl, hk]

/-- A wrapper runs to its end, whatever is below it on the stack. -/
theorem invoke_steps {m : Machine S α} (idle : m.stack = []) (hm : m.unwinding = none)
    (i : Invocation S α) (block : Code S α) (fs : List (Frame S α)) :
    ∃ n, steps n ((m.perform (.invoke i block)).atop fs) = (wrapperEnd m i block).atop fs := by
  have hstack := wrapperBlock_stack idle block
  have hblock := invoke_block_steps idle hm i block fs
  have hboundary := invoke_boundary_steps idle hm i block fs
  rw [wrapperEnd]
  generalize blockEnd block .none (m.signal true) = b at *
  cases hu : b.1.unwinding with
  | some p =>
    obtain ⟨n, hn⟩ := hblock
    refine ⟨n + 1, ?_⟩
    rw [steps_add, hn, steps, steps, ended, hu, Option.isSome_some, if_pos rfl, if_pos rfl,
      atop_cons _ _ hstack, step_push_atop, step_guard]
  | none =>
    obtain ⟨n, hn⟩ := hboundary hu
    obtain ⟨k, hk⟩ := steps_atop (delivered b.1 b.2 i) (.busy :: fs)
    rw [atop_cons _ _ (run_stack _)] at hk
    refine ⟨n + (k + 1), ?_⟩
    rw [steps_add, hn, steps_add, hk, steps, steps, step_push_atop, step_guard,
      ← afterBlock_run hstack hu]
    rfl

/-! ## Panics -/

/-- At the end of the boundary nothing runs and nothing unwinds, and the continuation waits if
there is an outcome left. -/
theorem boundaryEnd_waiting {m : Machine S α} (idle : m.stack = []) (hm : m.unwinding = none)
    (h : Handlers S α) (i : Invocation S α) :
    (boundaryEnd m h i).1.stack = [] ∧ (boundaryEnd m h i).1.unwinding = none ∧
      ∀ o, (boundaryEnd m h i).2 = some o →
        (boundaryEnd m h i).1.shared[m.shared.length]? = some ⟨false, .waiting h⟩ := by
  have hslot := share_slot m false h
  have idle' : (m.share false h).stack = [] := idle
  have hm' : (m.share false h).unwinding = none := hm
  simp only [boundaryEnd]
  generalize m.share false h = s at *
  generalize m.shared.length = k at *
  cases s.context.handle i.service with
  | error e => exact ⟨idle', hm', fun _ _ => hslot⟩
  | ok service =>
    simp only
    cases i.method with
    | response run | bare run => exact ⟨idle', hm', fun _ _ => hslot⟩
    | deferred run =>
      simp only
      split
      · exact ⟨idle', hm', fun _ _ => hslot⟩
      · exact ⟨idle', hm', fun _ _ => hslot⟩
    | call run =>
      simp only
      cases run service with
      | error p => exact ⟨idle', hm', fun _ _ => hslot⟩
      | ok c =>
        simp only
        cases c.delivery with
        | now a => exact ⟨run_stack _, rfl, fun _ => nofun⟩
        | later a | never => exact ⟨idle', hm', fun _ _ => hslot⟩

/-- Without a handler for the outcome nothing runs. -/
theorem run_complete_unhandled {m : Machine S α} (idle : m.stack = []) {k : Nat}
    {h : Handlers S α} (hk : m.shared[k]? = some ⟨false, .waiting h⟩) {o : Outcome α}
    (hfor : h.for? o = none) : (m.complete k o).run.unwinding = m.unwinding := by
  have hstack : (m.complete k o).stack = [] := by
    simp [complete, hk, deliver, hfor, idle]
  rw [run_of_stack_nil _ hstack]
  simp [complete, hk, deliver, hfor]

/-- A wrapper whose block returned unwinds with the panic of the handler of the outcome that was
left. -/
theorem delivered_unwinding {m : Machine S α} (idle : m.stack = []) (hm : m.unwinding = none)
    (h : Handlers S α) (i : Invocation S α) (p : Panic) :
    (delivered m h i).run.unwinding = some p ↔
      ∃ o handler, (boundaryEnd m h i).2 = some o ∧ h.for? o = some handler ∧
        ((boundaryEnd m h i).1.complete m.shared.length o).run.unwinding = some p := by
  obtain ⟨hstack, hunwinding, hslot⟩ := boundaryEnd_waiting idle hm h i
  rw [delivered]
  generalize boundaryEnd m h i = d at hstack hunwinding hslot ⊢
  obtain ⟨m', late⟩ := d
  cases late with
  | none =>
    simp only
    rw [run_of_stack_nil m' hstack, hunwinding]
    exact ⟨nofun, fun ⟨_, _, hlate, _⟩ => nomatch hlate⟩
  | some o =>
    constructor
    · intro hp
      cases hfor : h.for? o with
      | some handler => exact ⟨o, handler, rfl, hfor, hp⟩
      | none =>
        simp only at hp
        rw [run_complete_unhandled hstack (hslot o rfl) hfor, hunwinding] at hp
        cases hp
    · rintro ⟨o', handler, ho, -, hp⟩
      obtain rfl := Option.some.inj ho
      exact hp

/-- A wrapper unwinds with the panic of its block, or of a handler that ran after the boundary. -/
theorem wrapperEnd_unwinding {m : Machine S α} (idle : m.stack = []) (i : Invocation S α)
    (block : Code S α) (p : Panic) :
    let b := (blockEnd block .none (m.signal true)).1
    let h := (blockEnd block .none (m.signal true)).2
    (wrapperEnd m i block).unwinding = some p ↔ b.unwinding = some p ∨
      b.unwinding = none ∧ ∃ o handler, (boundaryEnd b h i).2 = some o ∧ h.for? o = some handler ∧
        ((boundaryEnd b h i).1.complete b.shared.length o).run.unwinding = some p := by
  intro b h
  have hstack : b.stack = [] := wrapperBlock_stack idle block
  cases hu : b.unwinding with
  | some q =>
    have hend : wrapperEnd m i block = b.signal false := if_pos (by rw [hu]; rfl)
    rw [hend, signal_unwinding, hu]
    constructor
    · exact .inl
    · rintro (hp | ⟨hnone, -⟩)
      · exact hp
      · cases hnone
  | none =>
    have hend : wrapperEnd m i block = (b.afterBlock h i).run.signal false :=
      if_neg (by rw [hu]; exact Bool.false_ne_true)
    rw [hend, signal_unwinding, afterBlock_run hstack hu, delivered_unwinding hstack hu]
    constructor
    · intro hp
      exact .inr ⟨rfl, hp⟩
    · rintro (hp | ⟨-, hp⟩)
      · cases hp
      · exact hp

/-- Only an error is left for calls and futures. -/
theorem boundaryEnd_late {m : Machine S α} {h : Handlers S α} {i : Invocation S α}
    (hlate : i.method.isLate) {o : Outcome α} (ho : (boundaryEnd m h i).2 = some o) :
    ∃ e, o = .error e := by
  simp only [boundaryEnd] at ho
  generalize m.share false h = s at ho
  cases hservice : s.context.handle i.service with
  | error e =>
    rw [hservice] at ho
    exact ⟨e, (Option.some.inj ho).symm⟩
  | ok service =>
    simp only [hservice] at ho
    cases hmethod : i.method with
    | response run | bare run => rw [hmethod] at hlate; cases hlate
    | deferred run =>
      simp only [hmethod] at ho
      split at ho
      · cases ho
      · exact ⟨_, (Option.some.inj ho).symm⟩
    | call run =>
      simp only [hmethod] at ho
      cases hrun : run service with
      | error p =>
        rw [hrun] at ho
        exact ⟨_, (Option.some.inj ho).symm⟩
      | ok c =>
        simp only [hrun] at ho
        cases hdelivery : c.delivery with
        | now a => rw [hdelivery] at ho; cases ho
        | later a | never =>
          simp only [hdelivery] at ho
          obtain ⟨p, -, hp⟩ := Option.map_eq_some_iff.1 ho
          exact ⟨_, hp.symm⟩

/-- A call that is completed inline leaves no outcome. -/
theorem boundaryEnd_inline {m : Machine S α} {h : Handlers S α} {i : Invocation S α}
    {run : S → Except Panic (Call α)} {s : S} {c : Call α} {a : Answer α}
    (hmethod : i.method = .call run) (hservice : m.context.handle i.service = .ok s)
    (hrun : run s = .ok c) (ha : c.delivery = .now a) : (boundaryEnd m h i).2 = none := by
  simp only [boundaryEnd, share, hmethod, hservice, hrun, ha]

/-! ## Signals -/

theorem blockEnd_bracketed (code : Code S α) (h : Handlers S α) (m : Machine S α) :
    Bracketed m (blockEnd code h m).1 := by
  fun_induction blockEnd code h m with
  | case1 _ m => exact .refl m
  | case2 _ _ _ _ _ _ ih => exact ih
  | case3 => exact ((perform_moves _).trans (run_moves _)).bracketed
  | case4 _ _ _ _ _ _ _ ih => exact ((perform_moves _).trans (run_moves _)).bracketed.trans ih

/-- The signals of a wrapper: the beginning, those of its block, those of its handlers, the end. -/
theorem wrapperEnd_signals {m : Machine S α} (idle : m.stack = []) (i : Invocation S α)
    (block : Code S α) :
    ∃ u v, Balanced u ∧ Balanced v ∧
      (blockEnd block .none (m.signal true)).1.signals =
        m.signals ++ (if m.context.reportsBusy then [true] else []) ++ u ∧
      (wrapperEnd m i block).signals =
        (blockEnd block .none (m.signal true)).1.signals ++ v ++
          (if m.context.reportsBusy then [false] else []) := by
  have hstart : (m.signal true).stack = [] := by rw [signal_stack, idle]
  have hblock := blockEnd_bracketed block .none (m.signal true)
  have hstack := wrapperBlock_stack idle block
  unfold wrapperEnd
  generalize blockEnd block .none (m.signal true) = b at hblock hstack ⊢
  obtain ⟨u, hu, hsignals⟩ :=
    hblock.balanced (by rw [hstart]; rfl) (by rw [hstack]; rfl)
  rw [signals_signal] at hsignals
  have hreports : b.1.context.reportsBusy = m.context.reportsBusy := by
    rw [hblock.context, signal_context]
  by_cases hpanic : b.1.unwinding.isSome
  · refine ⟨u, [], hu, .nil, hsignals, ?_⟩
    rw [if_pos hpanic, signals_signal, hreports, List.append_nil]
  · have hafter : Bracketed b.1 (b.1.afterBlock b.2 i).run :=
      ((afterBlock_move b.2 i).moves.trans (run_moves _)).bracketed
    obtain ⟨v, hv, hsignals'⟩ :=
      hafter.balanced (by rw [hstack]; rfl) (by rw [run_stack]; rfl)
    refine ⟨u, v, hu, hv, hsignals, ?_⟩
    rw [if_neg hpanic, signals_signal, hsignals', hafter.context, hreports]

/-! ## Main result -/

/-- **Signals and panics of wrappers.** Whenever nothing runs, the signals of a session are a
bracket word. Every wrapper, whatever is below it on the stack, runs to the end of its block, on to
the end of the boundary and to its own end; it signals `true` before its block and `false` as it
returns or unwinds, with bracket words in between. It unwinds with the panic of its block, or of
the handler for the outcome that was left at the end of the boundary, and with no other: for calls
and futures that outcome is an error, and a call that was completed inline leaves none. -/
theorem wrapper_signals_and_panics :
    (∀ (c : Context S) (ambient : Bool) (m : Machine S α), Later (start c ambient) m →
      m.stack = [] → Balanced m.signals) ∧
    ∀ (m : Machine S α) (i : Invocation S α) (block : Code S α) (fs : List (Frame S α)),
      m.stack = [] → m.unwinding = none →
      let b := (blockEnd block .none (m.signal true)).1
      let h := (blockEnd block .none (m.signal true)).2
      let d := (boundaryEnd b h i).1
      let late := (boundaryEnd b h i).2
      let e := wrapperEnd m i block
      let began := (m.perform (.invoke i block)).atop fs
      -- the states on the way
      (∃ n, steps n began = (ended (b, h) i).atop (.busy :: fs)) ∧
      (b.unwinding = none → ∃ n, steps n began = (delivered b h i).atop (.busy :: fs)) ∧
      (∃ n, steps n began = e.atop fs) ∧
      -- the signals
      (∃ u v, Balanced u ∧ Balanced v ∧
        b.signals = m.signals ++ (if m.context.reportsBusy then [true] else []) ++ u ∧
        e.signals = b.signals ++ v ++ (if m.context.reportsBusy then [false] else [])) ∧
      -- the panics
      (∀ p, e.unwinding = some p ↔ b.unwinding = some p ∨
        b.unwinding = none ∧ ∃ o handler, late = some o ∧ h.for? o = some handler ∧
          (d.complete b.shared.length o).run.unwinding = some p) ∧
      (i.method.isLate → ∀ o, late = some o → ∃ error, o = .error error) ∧
      (∀ run s c a, i.method = .call run → b.context.handle i.service = .ok s →
        run s = .ok c → c.delivery = .now a → late = none) := by
  refine ⟨fun c ambient m hlater idle => later_balanced hlater idle,
    fun m i block fs idle hm => ?_⟩
  intro b h d late e began
  exact ⟨invoke_block_steps idle hm i block fs, invoke_boundary_steps idle hm i block fs,
    invoke_steps idle hm i block fs, wrapperEnd_signals idle i block,
    wrapperEnd_unwinding idle i block, fun hlate o ho => boundaryEnd_late hlate ho,
    fun run s c a hmethod hservice hrun ha => boundaryEnd_inline hmethod hservice hrun ha⟩

end Machine

end WrapperGen.Calls
