import WrapperGen.Proofs.Calls.Delivery
/-!
# Outcomes that are known without a callback

What a wrapper delivers when its method gives a response, a value or a future.

* `Yields`: the outcome by what is bound, whether there is a runtime and what the service does.
* `boundaryEnd_yields`: at the end of the boundary that outcome is left to the wrapper, or a task
  has it.
* `one_outcome_delivered`: once nothing is left to run, the continuation got it, once.
-/

namespace WrapperGen.Calls

variable {S α : Type}

def Method.isCall : Method S α → Bool
  | .call _ => true
  | _ => false

/-- A client was set, and it has an implementation of the service. -/
def Context.Binds (c : Context S) (service : String) (s : S) : Prop :=
  ∃ r, c.client = some r ∧ r.get? service = some s

/-- What a wrapper delivers in a context, with a runtime or without one. That nothing is bound
counts first. -/
inductive Yields (c : Context S) (runtime : Bool) (service : String) :
    Method S α → Outcome α → Prop
  | noClient {method : Method S α} (shape : method.isCall = false) (client : c.client = none) :
      Yields c runtime service method
        (.error (.serviceUnavailable "no service client has been set"))
  | notBound {method : Method S α} {r : Registry S} (shape : method.isCall = false)
      (client : c.client = some r) (unbound : r.get? service = none) :
      Yields c runtime service method
        (.error (.serviceUnavailable ("no implementation bound for " ++ service)))
  | response {run : S → Except Panic (Response α)} {s : S} {r : Response α} {o : Outcome α}
      (bound : c.Binds service s) (returned : run s = .ok r) (settles : Settles (.ok r) o) :
      Yields c runtime service (.response run) o
  | responsePanic {run : S → Except Panic (Response α)} {s : S} {p : Panic}
      (bound : c.Binds service s) (panicked : run s = .error p) :
      Yields c runtime service (.response run) (.error (.ofPanic p))
  | bare {run : S → Except Panic α} {s : S} {v : α} (bound : c.Binds service s)
      (returned : run s = .ok v) : Yields c runtime service (.bare run) (.ok v)
  | barePanic {run : S → Except Panic α} {s : S} {p : Panic} (bound : c.Binds service s)
      (panicked : run s = .error p) : Yields c runtime service (.bare run) (.error (.ofPanic p))
  | noRuntime {run : S → Except Panic α} {s : S} (bound : c.Binds service s)
      (missing : runtime = false) : Yields c runtime service (.deferred run) (.error .noRuntime)
  | deferred {run : S → Except Panic α} {s : S} {v : α} (bound : c.Binds service s)
      (found : runtime = true) (returned : run s = .ok v) :
      Yields c runtime service (.deferred run) (.ok v)
  | deferredPanic {run : S → Except Panic α} {s : S} {p : Panic} (bound : c.Binds service s)
      (found : runtime = true) (panicked : run s = .error p) :
      Yields c runtime service (.deferred run) (.error (.ofPanic p))

namespace Context

variable {c : Context S} {service : String}

theorem handle_of_noClient (h : c.client = none) :
    c.handle service = .error (.serviceUnavailable "no service client has been set") := by
  unfold handle
  rw [h]
  rfl

theorem handle_of_notBound {r : Registry S} (h : c.client = some r) (hr : r.get? service = none) :
    c.handle service =
      .error (.serviceUnavailable ("no implementation bound for " ++ service)) := by
  unfold handle
  rw [h]
  dsimp only
  rw [hr]
  rfl

theorem Binds.handle {s : S} (h : c.Binds service s) : c.handle service = .ok s := by
  obtain ⟨r, hclient, hbound⟩ := h
  unfold Context.handle
  rw [hclient]
  dsimp only
  rw [hbound]

end Context

/-- A method that gives no call has an outcome in every context. -/
theorem yields_exists (c : Context S) (runtime : Bool) (service : String) {method : Method S α}
    (shape : method.isCall = false) : ∃ o, Yields c runtime service method o := by
  cases hclient : c.client with
  | none => exact ⟨_, .noClient shape hclient⟩
  | some r =>
    cases hbound : r.get? service with
    | none => exact ⟨_, .notBound shape hclient hbound⟩
    | some s =>
      have bound : c.Binds service s := ⟨r, hclient, hbound⟩
      cases method with
      | call run => cases shape
      | response run =>
        cases hrun : run s with
        | ok response => exact ⟨_, .response bound hrun (settles_settled (.ok response))⟩
        | error p => exact ⟨_, .responsePanic bound hrun⟩
      | bare run =>
        cases hrun : run s with
        | ok v => exact ⟨_, .bare bound hrun⟩
        | error p => exact ⟨_, .barePanic bound hrun⟩
      | deferred run =>
        cases runtime with
        | false => exact ⟨_, .noRuntime bound rfl⟩
        | true =>
          cases hrun : run s with
          | ok v => exact ⟨_, .deferred bound rfl hrun⟩
          | error p => exact ⟨_, .deferredPanic bound rfl hrun⟩

/-- An answer comes to one outcome only. -/
theorem Settles.settled_eq {a : Answer α} {o : Outcome α} (h : Settles a o) : settled a = o := by
  cases h with
  | failed e => rfl
  | body low high body => simp [settled, Except.bind, Response.outcome, Response.isSuccessful, *]
  | noBody low high body => simp [settled, Except.bind, Response.outcome, Response.isSuccessful, *]
  | @http r status =>
    have hstatus : r.isSuccessful = false := by
      simp only [Response.isSuccessful, Bool.and_eq_false_iff, decide_eq_false_iff_not]
      omega
    simp [settled, Except.bind, Response.outcome, hstatus]

namespace Machine

variable {k : Nat} {m m' : Machine S α} {h : Handlers S α} {i : Invocation S α} {o : Outcome α}

/-- At the end of the boundary the wrapper has the outcome, or a task does. -/
theorem boundaryEnd_yields (hyields : Yields m.context m.hasRuntime i.service i.method o)
    (h : Handlers S α) :
    boundaryEnd m h i = (m.share false h, some o) ∨
      boundaryEnd m h i = ((m.share false h).spawn m.shared.length o, none) := by
  have hruntime : (m.share false h).hasRuntime = m.hasRuntime := rfl
  have hcontext : (m.share false h).context = m.context := rfl
  obtain ⟨service, method⟩ := i
  simp only [boundaryEnd, hruntime, hcontext] at hyields ⊢
  cases hyields with
  | noClient shape client => exact .inl (by rw [Context.handle_of_noClient client])
  | notBound shape client unbound =>
    exact .inl (by rw [Context.handle_of_notBound client unbound])
  | @response _ _ r _ bound returned settles =>
    have hsettled : r.outcome = o := settles.settled_eq
    refine .inl ?_
    simp only [bound.handle, returned, Except.map, attempt, hsettled]
  | responsePanic bound panicked | barePanic bound panicked =>
    refine .inl ?_
    simp only [bound.handle, panicked, Except.map, attempt]
  | bare bound returned =>
    refine .inl ?_
    simp only [bound.handle, returned, Except.map, attempt]
  | noRuntime bound missing =>
    refine .inl ?_
    simp only [bound.handle, missing, Bool.false_eq_true, if_false]
  | deferred bound found returned =>
    refine .inr ?_
    simp only [bound.handle, found, returned, Except.map, attempt, if_true]
  | deferredPanic bound found panicked =>
    refine .inr ?_
    simp only [bound.handle, found, panicked, Except.map, attempt, if_true]

/-- After the boundary the outcome was delivered, or it is on the way. -/
theorem delivered_yields {fs : List (Frame S α)} (h : Handlers S α)
    (hyields : Yields m.context m.hasRuntime i.service i.method o)
    (hunknown : (m.atop fs).Unknown m.shared.length) :
    ((delivered m h i).atop fs).Waits m.shared.length h [o] ∨
      ((delivered m h i).atop fs).Answered m.shared.length h o := by
  have hwaits := share_waits h hunknown
  rw [delivered]
  rcases boundaryEnd_yields hyields h with hend | hend <;> rw [hend]
  · refine .inr ?_
    have hanswered := complete_answered hwaits.slot hwaits.deliveries hwaits.pending o
    rwa [complete_atop] at hanswered
  · exact .inl (spawn_waits hwaits)

/-- Where no task is left, an outcome that was on the way has been delivered. -/
theorem answered_of_idle (hm : m.Waits k h [o] ∨ m.Answered k h o) (hlater : Later m m')
    (htasks : m'.tasks = []) : m'.Answered k h o := by
  rcases hm with hm | hm
  · rcases hm.later hlater with hm' | hm'
    · have hpending := hm'.pending
      rw [pending, htasks] at hpending
      cases hpending
    · exact hm'
  · exact hm.later hlater

/-- **Outcomes of responses, values and futures.** When a wrapper that gives no call was invoked in
a session and its block returned, the session can go on until nothing is left to run, and whatever
happened until then, the continuation was completed with the one outcome that the state at the end
of the block yields, and the handler for that outcome, if one was registered, got it, once; no other
handler got anything. -/
theorem one_outcome_delivered {context : Context S} {ambient : Bool} {m : Machine S α}
    {i : Invocation S α} {block : Code S α} {fs : List (Frame S α)}
    (reached : Later (start context ambient) ((m.perform (.invoke i block)).atop fs))
    (idle : m.stack = []) (calm : m.unwinding = none)
    (returned : (blockEnd block .none (m.signal true)).1.unwinding = none)
    (shape : i.method.isCall = false) :
    let began := (m.perform (.invoke i block)).atop fs
    let b := (blockEnd block .none (m.signal true)).1
    let h := (blockEnd block .none (m.signal true)).2
    let k := b.shared.length
    (∃ m', Later began m' ∧ m'.stack = [] ∧ m'.tasks = []) ∧
    (∃ o, Yields b.context b.hasRuntime i.service i.method o) ∧
    (∀ o, Yields b.context b.hasRuntime i.service i.method o →
      ∀ m', Later began m' → m'.stack = [] → m'.tasks = [] →
        m'.shared[k]? = some ⟨false, .completed o⟩ ∧
        m'.deliveries k =
          (match o with | .ok _ => h.success | .error _ => h.failure).toList.map
            fun handler : Handler S α => (handler.tag, o)) ∧
    ∀ code message, (CallError.http code message).text =
      "HTTP Error: " ++ toString code ++ " - " ++ message := by
  intro began b h k
  refine ⟨⟨began.run.drain, ?_, drain_stack (run_stack _), drain_tasks (run_stack _)⟩,
    yields_exists b.context b.hasRuntime i.service shape,
    fun o hyields m' hlater hidle htasks => ?_, fun _ _ => rfl⟩
  · exact (run_later _).trans (drain_later (run_stack _))
  obtain ⟨n, hn, hunknown⟩ := invoke_delivered reached idle calm returned
  have hend := delivered_yields h hyields hunknown
  have hanswered := answered_of_idle hend (hn ▸ hlater.after_steps hidle n) htasks
  refine ⟨hanswered.slot, hanswered.deliveries.trans ?_⟩
  cases o with
  | ok v => rfl
  | error e => rfl

end Machine

end WrapperGen.Calls

namespace WrapperGen.Demo

open Calls Calls.Machine

namespace ExampleService

/-- A service whose future panics. -/
def exploding : ExampleService :=
  { calling .dropped with fetchLater := fun _ => .error (.text "boom") }

/-- A session with that service in which nothing has happened, inside a runtime. -/
def explosive : Machine ExampleService Nat :=
  start ⟨some (Registry.empty.bind name exploding), true, false⟩ true

end ExampleService

open ExampleService

/-- The panic of a future reaches the failure handler, after the task that ran it. -/
theorem exploded_reaches_one :
    let m := (explosive.execute [.invoke (fetchLaterOf 1) both]).drain
    m.shared[0]? = some ⟨false, .completed (.error (.panicked "boom"))⟩ ∧
      m.deliveries 0 = [(some "record", .error (.panicked "boom"))] := by
  intro m
  let began := (explosive.perform (.invoke (fetchLaterOf 1) both)).atop [.code []]
  have hbegan : Later explosive began :=
    (Next.execute [.invoke (fetchLaterOf 1) both] rfl).later.trans (Next.step _).later
  have hexecute : explosive.execute [.invoke (fetchLaterOf 1) both] = began.run :=
    (run_step { explosive with stack := [.code [.invoke (fetchLaterOf 1) both]] }).symm
  have hm : m = began.run.drain := congrArg drain hexecute
  have hlater : Later began m := by
    rw [hm]
    exact (run_later _).trans (drain_later (run_stack _))
  have hyields : Yields (S := ExampleService) ⟨some (Registry.empty.bind name exploding), true,
      false⟩ true name (fetchLaterOf 1).method (.error (.ofPanic (.text "boom"))) :=
    .deferredPanic ⟨_, rfl, rfl⟩ rfl rfl
  exact (one_outcome_delivered (m := explosive) hbegan rfl rfl rfl rfl).2.2.1 _ hyields m hlater
    (drain_stack (run_stack _)) (drain_tasks (run_stack _))

end WrapperGen.Demo
