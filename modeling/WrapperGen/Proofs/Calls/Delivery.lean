import WrapperGen.Demo.Services
import WrapperGen.Proofs.Calls.Wrappers
/-!
# What becomes of a call's outcome

* `Numbered`: nothing knows a continuation that is not shared yet. It holds throughout a session
  (`later_numbered`), so a wrapper shares a continuation that is new.
* `Waits`, `Answered`: the outcome of a call is on the way, or it was delivered. It stays on the way
  until its task begins (`Waits.later`), and it is delivered once (`Answered.later`).
* `outcome_delivered_iff_answered`: once nothing is left to run, one handler got what the answer
  comes to, if there was an answer.
-/

namespace WrapperGen.Calls

variable {S α : Type}

/-! ## Answers -/

/-- What an answer comes to. -/
inductive Settles : Answer α → Outcome α → Prop
  | body {r : Response α} {v : α} (low : 200 ≤ r.code) (high : r.code < 300)
      (body : r.body = some v) : Settles (.ok r) (.ok v)
  | noBody {r : Response α} (low : 200 ≤ r.code) (high : r.code < 300) (body : r.body = none) :
      Settles (.ok r) (.error .emptyBody)
  | http {r : Response α} (status : r.code < 200 ∨ 300 ≤ r.code) :
      Settles (.ok r) (.error (.http r.code r.message))
  | failed (e : CallError) : Settles (.error e) (.error e)

theorem settles_settled (a : Answer α) : Settles a (settled a) := by
  cases a with
  | error e => exact .failed e
  | ok r =>
    show Settles (.ok r) r.outcome
    unfold Response.outcome
    cases hstatus : r.isSuccessful with
    | true =>
      simp only [Response.isSuccessful, Bool.and_eq_true, decide_eq_true_eq] at hstatus
      cases hbody : r.body with
      | some v => exact .body hstatus.1 hstatus.2 hbody
      | none => exact .noBody hstatus.1 hstatus.2 hbody
    | false =>
      simp only [Response.isSuccessful, Bool.and_eq_false_iff, decide_eq_false_iff_not] at hstatus
      exact .http (by omega)

/-- The answer that a call without a panic gives to who waits for it. -/
theorem Call.execute_eq {c : Call α} (h : c.panic = none) :
    c.execute = .ok (c.answers.headD (.error .cancelled)) := by
  unfold Call.execute Call.enqueue
  rw [h]
  cases c.answers <;> rfl

/-- What is delivered when the handlers are completed with an outcome. -/
def Handlers.got (h : Handlers S α) (o : Outcome α) : List (Option String × Outcome α) :=
  (h.for? o).toList.map fun handler => (handler.tag, o)

namespace Machine

variable {k : Nat} {m m' : Machine S α}

/-! ## Numbers that are not given yet -/

/-- Nothing knows the continuation. -/
structure Unknown (m : Machine S α) (k : Nat) : Prop where
  deliveries : m.deliveries k = []
  pending : m.pending k = []
  boundary : ∀ panic, .boundary k panic ∉ m.stack

/-- Nothing knows a continuation that is not shared yet. -/
def Numbered (m : Machine S α) : Prop := ∀ k, m.shared.length ≤ k → m.Unknown k

theorem Unknown.closed (h : m.Unknown k) (hk : m.shared.length ≤ k) : m.Closed k := by
  refine .inr ⟨fun handlers hslot => ?_, h.boundary⟩
  rw [List.getElem?_eq_none hk] at hslot
  cases hslot

theorem Spares.unknown (h : Spares k m m') (hk : m.Unknown k) : m'.Unknown k where
  deliveries := h.deliveries.trans hk.deliveries
  pending := h.pending.trans hk.pending
  boundary panic hp := hk.boundary panic (h.boundary panic hp)

/-! ## What happens next -/

theorem Next.length_le (h : Next m m') : m.shared.length ≤ m'.shared.length := by
  cases h with
  | step => exact (step_moves m).length_le
  | execute | leave => exact Nat.le_refl _
  | owned => exact Nat.le_of_eq (by rw [deliver_shared])
  | share =>
    rw [share_length]
    omega
  | task => exact Nat.le_of_eq (complete_length (m.takeTask _) _ _).symm

/-- A task of another continuation is not missed. -/
theorem filter_eraseIdx {ts : List (Task α)} {n : Nat} {t : Task α} (ht : ts[n]? = some t)
    (hne : t.continuation ≠ k) :
    (ts.eraseIdx n).filter (·.continuation == k) = ts.filter (·.continuation == k) := by
  induction ts generalizing n with
  | nil => rfl
  | cons s ts ih =>
    cases n with
    | zero =>
      obtain rfl : s = t := by simpa using ht
      rw [List.eraseIdx_cons_zero, List.filter_cons_of_neg (by simpa using hne)]
    | succ n =>
      rw [List.eraseIdx_cons_succ, List.filter_cons, List.filter_cons, ih (by simpa using ht)]

/-- Taking the only task of a continuation. -/
theorem filter_eraseIdx_self {ts : List (Task α)} {n : Nat} {t : Task α} {o : Outcome α}
    (ht : ts[n]? = some t) (hk : t.continuation = k)
    (h : (ts.filter (·.continuation == k)).map (·.outcome) = [o]) :
    t.outcome = o ∧ (ts.eraseIdx n).filter (·.continuation == k) = [] := by
  induction ts generalizing n with
  | nil => cases h
  | cons s ts ih =>
    cases n with
    | zero =>
      obtain rfl : s = t := by simpa using ht
      rw [List.filter_cons_of_pos (by simpa using hk), List.map_cons, List.cons.injEq] at h
      rw [List.eraseIdx_cons_zero]
      exact ⟨h.1, List.map_eq_nil_iff.1 h.2⟩
    | succ n =>
      have ht' : ts[n]? = some t := by simpa using ht
      have hmem : t ∈ ts.filter (·.continuation == k) :=
        List.mem_filter.2 ⟨List.mem_of_getElem? ht', by simpa using hk⟩
      have hs : s.continuation ≠ k := by
        intro hs
        rw [List.filter_cons_of_pos (by simpa using hs), List.map_cons, List.cons.injEq] at h
        rw [List.map_eq_nil_iff.1 h.2] at hmem
        cases hmem
      rw [List.filter_cons_of_neg (by simpa using hs)] at h
      rw [List.eraseIdx_cons_succ, List.filter_cons_of_neg (by simpa using hs)]
      exact ih ht' h

/-- What happens next is a step, or it spares a continuation unless its own task begins. -/
theorem Next.step_or_spares (h : Next m m')
    (hshared : k < m.shared.length ∨ m'.shared.length ≤ k) :
    m' = m.step ∨ Spares k m m' ∨
      ∃ n t, m.tasks[n]? = some t ∧ t.continuation = k ∧ m' = m.beginTask n t := by
  cases h with
  | step => exact .inl rfl
  | execute code idle =>
    refine .inr (.inl ⟨rfl, rfl, rfl, fun panic hp => ?_⟩)
    cases List.mem_singleton.1 hp
  | owned handlers o _ =>
    have hidle : Spares k m { m with stack := [], unwinding := none } :=
      ⟨rfl, rfl, rfl, fun _ hp => nomatch hp⟩
    exact .inr (.inl (hidle.trans (deliver_spares (Option.some_ne_none k).symm handlers o)))
  | share handlers idle =>
    rw [share_length] at hshared
    exact .inr (.inl (share_spares (by omega) true handlers))
  | @task n t idle ht =>
    by_cases htask : t.continuation = k
    · exact .inr (.inr ⟨n, t, ht, htask, rfl⟩)
    · have htake : Spares k m (m.takeTask n) := by
        refine ⟨rfl, rfl, ?_, fun _ hp => nomatch hp⟩
        rw [pending, takeTask, filter_eraseIdx ht htask, pending]
      exact .inr (.inl (htake.trans (complete_spares (fun hk => absurd hk htask) _)))
  | leave ambient idle => exact .inr (.inl ⟨rfl, rfl, rfl, fun _ hp => hp⟩)

/-- Whatever happens next spares a continuation, unless its own task begins. -/
theorem Next.spares (h : Next m m') (hk : m.Closed k)
    (hshared : k < m.shared.length ∨ m'.shared.length ≤ k) :
    Spares k m m' ∨
      ∃ n t, m.tasks[n]? = some t ∧ t.continuation = k ∧ m' = m.beginTask n t := by
  rcases h.step_or_spares hshared with rfl | h
  · exact .inl ((step_moves m).spares hk hshared)
  · exact h

theorem not_mem_tasks (h : m.pending k = []) {n : Nat} {t : Task α} (ht : m.tasks[n]? = some t) :
    t.continuation ≠ k := by
  intro hk
  have hmem : t ∈ m.tasks.filter (·.continuation == k) :=
    List.mem_filter.2 ⟨List.mem_of_getElem? ht, by simpa using hk⟩
  rw [pending, List.map_eq_nil_iff] at h
  rw [h] at hmem
  cases hmem

/-- Without a task a continuation is spared. -/
theorem Next.spares_of_pending (h : Next m m') (hk : m.Closed k)
    (hshared : k < m.shared.length ∨ m'.shared.length ≤ k) (hpending : m.pending k = []) :
    Spares k m m' := by
  rcases h.spares hk hshared with h | ⟨n, t, ht, htask, -⟩
  · exact h
  · exact absurd htask (not_mem_tasks hpending ht)

/-- A number that is not given after something happened was not given before. -/
theorem Next.numbered (h : Next m m') (hm : m.Numbered) : m'.Numbered := by
  intro k hk
  have hlength := Nat.le_trans h.length_le hk
  have hunknown := hm k hlength
  exact (h.spares_of_pending (hunknown.closed hlength) (.inr hk) hunknown.pending).unknown hunknown

/-- In a session nothing knows a continuation that is not shared yet. -/
theorem later_numbered {c : Context S} {ambient : Bool} (h : Later (start c ambient) m) :
    m.Numbered := by
  induction h with
  | refl => exact fun k _ => ⟨rfl, rfl, fun _ hp => nomatch hp⟩
  | tail _ hnext ih => exact hnext.numbered ih

/-! ## Outcomes on the way -/

/-- A continuation of a wrapper that has left its boundary, with the outcomes that tasks have for
it. -/
structure Waits (m : Machine S α) (k : Nat) (h : Handlers S α) (os : List (Outcome α)) : Prop where
  slot : m.shared[k]? = some ⟨false, .waiting h⟩
  boundary : ∀ panic, .boundary k panic ∉ m.stack
  pending : m.pending k = os
  deliveries : m.deliveries k = []

/-- The handler for the outcome got it, and nothing more will come. -/
structure Answered (m : Machine S α) (k : Nat) (h : Handlers S α) (o : Outcome α) : Prop where
  slot : m.shared[k]? = some ⟨false, .completed o⟩
  pending : m.pending k = []
  deliveries : m.deliveries k = h.got o

variable {h : Handlers S α} {o : Outcome α} {os : List (Outcome α)}

theorem Waits.lt (hm : m.Waits k h os) : k < m.shared.length :=
  (List.getElem?_eq_some_iff.1 hm.slot).1

theorem Waits.closed (hm : m.Waits k h os) : m.Closed k := by
  refine .inr ⟨fun handlers hslot => ?_, hm.boundary⟩
  rw [hm.slot] at hslot
  cases hslot

theorem Spares.waits (hs : Spares k m m') (hm : m.Waits k h os) : m'.Waits k h os where
  slot := hs.slot.trans hm.slot
  boundary panic hp := hm.boundary panic (hs.boundary panic hp)
  pending := hs.pending.trans hm.pending
  deliveries := hs.deliveries.trans hm.deliveries

theorem Answered.done (hm : m.Answered k h o) : m.IsDone k := ⟨false, o, hm.slot⟩

theorem Spares.answered (hs : Spares k m m') (hm : m.Answered k h o) : m'.Answered k h o where
  slot := hs.slot.trans hm.slot
  pending := hs.pending.trans hm.pending
  deliveries := hs.deliveries.trans hm.deliveries

/-- Whatever happens, what was delivered stays so. -/
theorem Answered.later (hm : m.Answered k h o) (hlater : Later m m') : m'.Answered k h o := by
  induction hlater with
  | refl => exact hm
  | tail _ hnext ih =>
    exact (hnext.spares_of_pending (.inl ih.done) (.inl ih.done.lt) ih.pending).answered ih

/-- Without a task nothing is delivered. -/
theorem Waits.later_lost (hm : m.Waits k h []) (hlater : Later m m') : m'.Waits k h [] := by
  induction hlater with
  | refl => exact hm
  | tail _ hnext ih =>
    exact (hnext.spares_of_pending ih.closed (.inl ih.lt) ih.pending).waits ih

theorem deliver_deliveries (m : Machine S α) (k : Nat) (h : Handlers S α) (o : Outcome α) :
    (m.deliver (some k) h o).deliveries k = m.deliveries k ++ h.got o := by
  unfold deliver Handlers.got
  split <;> rename_i hfor <;> rw [hfor]
  · simp [deliveries, emit, push, List.filterMap_append, deliveredTo?]
  · simp

theorem deliver_pending (m : Machine S α) (k' : Option Nat) (h : Handlers S α) (o : Outcome α) :
    (m.deliver k' h o).pending k = m.pending k := by
  unfold deliver
  split <;> rfl

theorem complete_answered (hslot : m.shared[k]? = some ⟨false, .waiting h⟩)
    (hdeliveries : m.deliveries k = []) (hpending : m.pending k = []) (o : Outcome α) :
    (m.complete k o).Answered k h o := by
  refine ⟨complete_slot hslot o, ?_, ?_⟩
  · simp only [complete, hslot, deliver_pending]
    exact hpending
  · simp only [complete, hslot, deliver_deliveries]
    have hset : ({ m with shared := m.shared.set k ⟨false, .completed o⟩ } :
        Machine S α).deliveries k = [] := hdeliveries
    rw [hset, List.nil_append]

/-- The task of a continuation delivers its outcome. -/
theorem Waits.beginTask {n : Nat} {t : Task α} (hm : m.Waits k h [o]) (ht : m.tasks[n]? = some t)
    (hk : t.continuation = k) : (m.beginTask n t).Answered k h o := by
  obtain ⟨rfl, hpending⟩ := filter_eraseIdx_self ht hk hm.pending
  have hnone : (m.takeTask n).pending k = [] := List.map_eq_nil_iff.2 hpending
  subst hk
  exact complete_answered (m := m.takeTask n) hm.slot hm.deliveries hnone t.outcome

/-- An outcome stays on the way until it is delivered. -/
theorem Waits.later (hm : m.Waits k h [o]) (hlater : Later m m') :
    m'.Waits k h [o] ∨ m'.Answered k h o := by
  induction hlater with
  | refl => exact .inl hm
  | @tail m₁ m₂ _ hnext ih =>
    rcases ih with ih | ih
    -- only its own task can complete the continuation
    · rcases hnext.spares ih.closed (.inl ih.lt) with hs | ⟨n, t, ht, hk, rfl⟩
      · exact .inl (hs.waits ih)
      · exact .inr (ih.beginTask ht hk)
    · exact .inr (ih.later hnext.later)

/-! ## Calls -/

/-- The machine that a wrapper leaves after the boundary, with the outcome of a call on the way or
delivered. -/
def Left (m : Machine S α) (k : Nat) (h : Handlers S α) : Delivery α → Prop
  | .now a => m.Answered k h (settled a)
  | .later a => m.Waits k h [settled a]
  | .never => m.Waits k h []

theorem spawn_waits {o : Outcome α} (hm : m.Waits k h []) : (m.spawn k o).Waits k h [o] where
  slot := hm.slot
  boundary := hm.boundary
  pending := by
    have hpending := hm.pending
    rw [pending, List.map_eq_nil_iff] at hpending
    simp [pending, spawn, hpending]
  deliveries := hm.deliveries

/-- A continuation that was just shared waits. -/
theorem share_waits {m : Machine S α} (h : Handlers S α) {fs : List (Frame S α)}
    (hunknown : (m.atop fs).Unknown m.shared.length) :
    ((m.share false h).atop fs).Waits m.shared.length h [] :=
  ⟨share_slot m false h, hunknown.boundary, hunknown.pending, hunknown.deliveries⟩

theorem delivered_call {m : Machine S α} {i : Invocation S α} {run : S → Except Panic (Call α)}
    {s : S} {c : Call α} (h : Handlers S α) (hmethod : i.method = .call run)
    (hservice : m.context.handle i.service = .ok s) (hrun : run s = .ok c) (hpanic : c.panic = none)
    {fs : List (Frame S α)} (hunknown : (m.atop fs).Unknown m.shared.length) :
    ((delivered m h i).atop fs).Left m.shared.length h c.delivery := by
  have hwaits := share_waits h hunknown
  have hservice' : (m.share false h).context.handle i.service = .ok s := hservice
  simp only [delivered, boundaryEnd, hmethod, hservice', hrun, hpanic]
  cases hdelivery : c.delivery with
  | later a => exact spawn_waits hwaits
  | never => exact hwaits
  | now a =>
    -- the handler may do anything: its continuation is completed before it runs
    have hanswered : ((m.share false h).complete m.shared.length (settled a)).Answered
        m.shared.length h (settled a) :=
      complete_answered (m := m.share false h) hwaits.slot hwaits.deliveries hwaits.pending _
    have hrun' := (run_moves _).spares (.inl hanswered.done) (.inl hanswered.done.lt)
    have hend := hrun'.answered hanswered
    exact ⟨hend.slot, hend.pending, hend.deliveries⟩

/-- Where nothing is left to run, an outcome is not on the way any more. -/
theorem Left.later_idle {c : Call α} (hm : m.Left k h c.delivery) (hlater : Later m m')
    (htasks : m'.tasks = []) :
    m'.deliveries k = c.answers.flatMap fun a => h.got (settled a) := by
  unfold Call.answers
  cases hdelivery : c.delivery with
  | now a =>
    rw [hdelivery] at hm
    simpa using (Answered.later hm hlater).deliveries
  | never =>
    rw [hdelivery] at hm
    exact (Waits.later_lost hm hlater).deliveries
  | later a =>
    rw [hdelivery] at hm
    rcases Waits.later hm hlater with hm' | hm'
    · have hpending := hm'.pending
      rw [pending, htasks] at hpending
      cases hpending
    · simpa using hm'.deliveries

/-! ## Main result -/

/-- What comes later when nothing runs any more comes after the steps. -/
theorem Later.after_steps (hlater : Later m m') (idle : m'.stack = []) (n : Nat) :
    Later (steps n m) m' := by
  induction n generalizing m with
  | zero => exact hlater
  | succ n ih =>
    refine ih ?_
    rcases hlater.cases_head with rfl | ⟨m₁, hnext, hlater₁⟩
    · rw [step_of_stack_nil _ idle]
      exact .refl _
    · cases hnext with
      | step => exact hlater₁
      | execute _ idle' | owned _ _ idle' | share _ idle' | task idle' _ | leave _ idle' =>
        rw [step_of_stack_nil m idle']
        exact hlater

/-- A wrapper that was invoked in a session and whose block returned goes on to the end of the
boundary, with a continuation that nothing else knows. -/
theorem invoke_delivered {context : Context S} {ambient : Bool} {m : Machine S α}
    {i : Invocation S α} {block : Code S α} {fs : List (Frame S α)}
    (reached : Later (start context ambient) ((m.perform (.invoke i block)).atop fs))
    (idle : m.stack = []) (calm : m.unwinding = none)
    (returned : (blockEnd block .none (m.signal true)).1.unwinding = none) :
    ∃ n, steps n ((m.perform (.invoke i block)).atop fs) =
        (delivered (blockEnd block .none (m.signal true)).1
          (blockEnd block .none (m.signal true)).2 i).atop (.busy :: fs) ∧
      ((blockEnd block .none (m.signal true)).1.atop (.busy :: fs)).Unknown
        (blockEnd block .none (m.signal true)).1.shared.length := by
  obtain ⟨n, hn⟩ := invoke_block_steps idle calm i block fs
  obtain ⟨k, hk⟩ := invoke_boundary_steps idle calm i block fs returned
  generalize blockEnd block .none (m.signal true) = b at *
  have hnumbered : ((ended b i).atop (.busy :: fs)).Numbered := by
    rw [← hn]
    exact later_numbered (reached.trans (steps_later n _))
  have hended : ended b i = b.1.push (.block [] b.2 i) := by simp [ended, returned]
  rw [hended] at hnumbered
  have hblock := hnumbered b.1.shared.length (Nat.le_refl _)
  exact ⟨k, hk, hblock.deliveries, hblock.pending, fun p hp => hblock.boundary p (.tail _ hp)⟩

/-- The outcome of a call after its wrapper was invoked in a session, whatever is below on the
stack. -/
theorem invoke_left {context : Context S} {ambient : Bool} {m : Machine S α} {i : Invocation S α}
    {block : Code S α} {fs : List (Frame S α)} {run : S → Except Panic (Call α)} {s : S}
    {c : Call α} (reached : Later (start context ambient) ((m.perform (.invoke i block)).atop fs))
    (idle : m.stack = []) (calm : m.unwinding = none)
    (returned : (blockEnd block .none (m.signal true)).1.unwinding = none)
    (method : i.method = .call run)
    (service : (blockEnd block .none (m.signal true)).1.context.handle i.service = .ok s)
    (dispatched : run s = .ok c) (answers : c.panic = none) :
    ∃ n, (steps n ((m.perform (.invoke i block)).atop fs)).Left
      (blockEnd block .none (m.signal true)).1.shared.length
      (blockEnd block .none (m.signal true)).2 c.delivery := by
  obtain ⟨n, hn, hunknown⟩ := invoke_delivered reached idle calm returned
  refine ⟨n, ?_⟩
  rw [hn]
  exact delivered_call _ method service dispatched answers hunknown

/-- **Outcomes of calls.** When the wrapper of a call was invoked in a session and its block
returned with both handlers, the session can go on until nothing is left to run, and whatever
happened until then, exactly one handler got an outcome, once, if the call is answered: what the
answer that one would have waited for comes to. If the call is never answered, no handler got
anything, though who waits for it learns that it was cancelled. -/
theorem outcome_delivered_iff_answered {context : Context S} {ambient : Bool} {m : Machine S α}
    {i : Invocation S α} {block : Code S α} {fs : List (Frame S α)}
    {run : S → Except Panic (Call α)} {s : S} {c : Call α} {onSuccess onFail : Handler S α}
    (reached : Later (start context ambient) ((m.perform (.invoke i block)).atop fs))
    (idle : m.stack = []) (calm : m.unwinding = none)
    (returned : (blockEnd block .none (m.signal true)).1.unwinding = none)
    (handlers : (blockEnd block .none (m.signal true)).2 = ⟨some onSuccess, some onFail⟩)
    (method : i.method = .call run)
    (service : (blockEnd block .none (m.signal true)).1.context.handle i.service = .ok s)
    (dispatched : run s = .ok c) (answers : c.panic = none) :
    let began := (m.perform (.invoke i block)).atop fs
    let k := (blockEnd block .none (m.signal true)).1.shared.length
    (∃ m', Later began m' ∧ m'.stack = [] ∧ m'.tasks = []) ∧
    ∀ m', Later began m' → m'.stack = [] → m'.tasks = [] →
      (c.delivery ≠ .never → ∃ a o, c.execute = .ok a ∧ Settles a o ∧
        m'.deliveries k = [(match o with | .ok _ => onSuccess.tag | .error _ => onFail.tag, o)]) ∧
      (c.delivery = .never → c.execute = .ok (.error .cancelled) ∧ m'.deliveries k = []) := by
  intro began k
  obtain ⟨n, hleft⟩ := invoke_left reached idle calm returned method service dispatched answers
  refine ⟨⟨began.run.drain, ?_, drain_stack (run_stack _), drain_tasks (run_stack _)⟩,
    fun m' hlater hidle htasks => ?_⟩
  · exact (run_later _).trans (drain_later (run_stack _))
  have hdeliveries := hleft.later_idle (hlater.after_steps hidle n) htasks
  have hexecute := c.execute_eq answers
  rw [handlers] at hdeliveries
  unfold Call.answers at hdeliveries hexecute
  cases hdelivery : c.delivery with
  | never =>
    rw [hdelivery] at hdeliveries hexecute
    exact ⟨fun h => absurd rfl h, fun _ => ⟨hexecute, hdeliveries⟩⟩
  | now a | later a =>
    rw [hdelivery] at hdeliveries hexecute
    refine ⟨fun _ => ⟨a, settled a, hexecute, settles_settled a, hdeliveries.trans ?_⟩, nofun⟩
    simp only [List.flatMap_cons, List.flatMap_nil, List.append_nil]
    cases settled a <;> rfl

end Machine

end WrapperGen.Calls

namespace WrapperGen.Demo

open Calls Calls.Machine

namespace ExampleService

/-- A service whose calls are all the same. -/
def calling (c : Call Nat) : ExampleService :=
  ⟨fun _ => .ok c, fun _ => .ok (.success 0), .ok 0, .ok⟩

/-- A session with such a service in which nothing has happened. -/
def session (c : Call Nat) : Machine ExampleService Nat :=
  start ⟨some (Registry.empty.bind name (calling c)), true, false⟩ false

/-- The block that registers both handlers. -/
def both : Code ExampleService Nat := [.onSuccess (some "record") [], .onFail (some "record") []]

/-- The session when a wrapper was invoked and nothing is left to run. -/
def fetched (c : Call Nat) : Machine ExampleService Nat :=
  ((session c).execute [.invoke (fetchOf "x") both]).drain

end ExampleService

open ExampleService

/-- A call that drops its callback reaches no handler, nor does one whose task panics, since it is
the same. -/
theorem dropped_reaches_none :
    (Call.dropped : Call Nat) = Call.spawned (.error (.text "lost")) ∧
    (Call.dropped : Call Nat).execute = .ok (.error .cancelled) ∧
    (fetched Call.dropped).stack = [] ∧ (fetched Call.dropped).tasks = [] ∧
    (fetched Call.dropped).deliveries 0 = [] :=
  ⟨rfl, rfl, rfl, rfl, rfl⟩

/-- A call that a task answers reaches a handler. -/
theorem spawned_reaches_one :
    (fetched (Call.spawned (.ok (.ok (.success 7))))).deliveries 0 = [(some "record", .ok 7)] := by
  let c : Call Nat := Call.spawned (.ok (.ok (.success 7)))
  let began := ((session c).perform (.invoke (fetchOf "x") both)).atop [.code []]
  have hbegan : Later (session c) began :=
    (Next.execute [.invoke (fetchOf "x") both] rfl).later.trans (Next.step _).later
  have hexecute : (session c).execute [.invoke (fetchOf "x") both] = began.run :=
    (run_step { session c with stack := [.code [.invoke (fetchOf "x") both]] }).symm
  have hfetched : fetched c = began.run.drain := congrArg drain hexecute
  have hlater : Later began (fetched c) := by
    rw [hfetched]
    exact (run_later _).trans (drain_later (run_stack _))
  obtain ⟨a, o, ha, ho, hdeliveries⟩ := (outcome_delivered_iff_answered (m := session c) (c := c)
    hbegan rfl rfl rfl rfl rfl rfl rfl rfl).2 (fetched c) hlater (drain_stack (run_stack _))
      (drain_tasks (run_stack _)) |>.1 nofun
  obtain rfl : Except.ok (Response.success 7) = a := by cases ha; rfl
  cases ho with
  | body low high hbody =>
    cases hbody
    exact hdeliveries
  | noBody low high hbody => cases hbody
  | http status => simp [Response.success] at status

end WrapperGen.Demo
