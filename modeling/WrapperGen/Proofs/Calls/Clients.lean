import WrapperGen.Proofs.Calls.Bindings
import WrapperGen.Proofs.Calls.Threads
/-!
# The client of a context

A context takes the first client that it is given, and looks services up in it.

* `Selects`: what a lookup comes to, by the client. Both ways to look a service up agree
  (`find_selects`, `handle_eq`).
* `step_context`: the context changes only when a client is set, so in any history its client is
  the one that was set first (`History.context_eq`).
* `bound_and_set_once`: how threads are answered, by what was set before.
-/

namespace WrapperGen.Calls

variable {S α : Type}

/-! ## Lookups -/

/-- What a lookup of a service comes to, by the client that was set. -/
inductive Selects (client : Option (Registry S)) (name : String) : Except Refusal S → Prop
  | missing (unset : client = none) : Selects client name (.error .missing)
  | notBound {r : Registry S} (set : client = some r) (unbound : r.get? name = none) :
      Selects client name (.error (.notBound name))
  | bound {r : Registry S} {s : S} (set : client = some r) (bound : r.get? name = some s) :
      Selects client name (.ok s)

namespace Context

variable (c : Context S) (name : String)

theorem find_selects : Selects c.client name (c.find name) := by
  unfold find
  cases hclient : c.client with
  | none => exact .missing rfl
  | some r =>
    dsimp only
    cases hservice : r.get? name with
    | none => exact .notBound rfl hservice
    | some s => exact .bound rfl hservice

/-- A wrapper gets the service that a lookup selects, or the text of its refusal. -/
theorem handle_eq : c.handle name = (c.find name).mapError fun e => .serviceUnavailable e.text := by
  unfold handle find
  cases c.client with
  | none => rfl
  | some r =>
    dsimp only
    cases r.get? name <;> rfl

variable {c name}

theorem find_of_selects {a : Except Refusal S} (h : Selects c.client name a) : c.find name = a := by
  unfold find
  cases h with
  | missing unset => rw [unset]
  | notBound set unbound => simp only [set, unbound]
  | bound set bound => simp only [set, bound]

end Context

/-- The client that an instruction sets. -/
def Instr.client? : Instr S α → Option (Registry S)
  | .setClient r => some r
  | _ => none

/-- The client that is set first. -/
def firstClient (is : List (Instr S α)) : Option (Registry S) := is.findSome? (·.client?)

theorem client?_eq_some {i : Instr S α} {r : Registry S} :
    i.client? = some r ↔ i = .setClient r := by
  cases i <;> simp [Instr.client?]

theorem firstClient_append (is : List (Instr S α)) (i : Instr S α) :
    firstClient (is ++ [i]) = (firstClient is).or i.client? := by
  rw [firstClient, List.findSome?_append, firstClient]
  simp

/-! ## Steps that set no client -/

namespace Machine

variable {m m' : Machine S α} {client : Option (Registry S)}

theorem deliver_context (m : Machine S α) (k : Option Nat) (h : Handlers S α) (o : Outcome α) :
    (m.deliver k h o).context = m.context := by
  unfold deliver
  split <;> rfl

theorem complete_context (m : Machine S α) (k : Nat) (o : Outcome α) :
    (m.complete k o).context = m.context := by
  unfold complete
  split
  · exact deliver_context _ _ _ _
  · rfl

theorem tryComplete_context (m : Machine S α) (k : Nat) (o : Outcome α) :
    (m.tryComplete k o).context = m.context := by
  unfold tryComplete
  split
  · exact complete_context _ _ _
  · rfl
  · rfl

theorem settling_context {k : Nat} (h : Settling k m m') : m'.context = m.context := by
  cases h with
  | complete o => exact complete_context m k o
  | spawn o => rfl
  | nothing => rfl

theorem afterBlock_context (m : Machine S α) (h : Handlers S α) (i : Invocation S α) :
    (m.afterBlock h i).context = m.context := by
  rcases afterBlock_settling h i with settling | ⟨panic, settling⟩
  · exact (settling_context settling).trans rfl
  · exact (settling_context settling).trans rfl

theorem perform_context {i : Instr S α} (hi : i.client? = none) :
    (m.perform i).context = m.context := by
  cases i with
  | note _ | onSuccess _ _ | onFail _ _ | panic _ => rfl
  | invoke i block | guarded body => exact signal_context true
  | complete k o => exact tryComplete_context m k o
  | setClient r => cases hi
  | probe _ | service _ _ | serviceHandle _ =>
    simp only [perform]
    split <;> rfl

/-- A step changes the context only if it sets a client. -/
theorem step_context (hi : ∀ r, m.instr? ≠ some (.setClient r)) : m.step.context = m.context := by
  have hperform : ∀ {m' : Machine S α} {i : Instr S α}, m.instr? = some i →
      (m'.perform i).context = m'.context := fun {m' i} hinstr => perform_context <| by
    cases hclient : i.client? with
    | none => rfl
    | some r => exact absurd (client?_eq_some.1 hclient ▸ hinstr) (hi r)
  obtain ⟨context, ambient, shared, stack, unwinding, trace, tasks⟩ := m
  cases stack with
  | nil => rfl
  | cons f fs =>
    cases unwinding with
    | some p =>
      cases f with
      | code _ | block _ _ _ | won | found => rfl
      | busy => exact signal_context false
      | boundary k panic => exact complete_context _ k _
    | none =>
      cases f with
      | won | found => rfl
      | busy => exact signal_context false
      | boundary k panic =>
        cases panic with
        | none => rfl
        | some p => exact complete_context _ k _
      | code rest =>
        cases rest with
        | nil => rfl
        | cons i is => exact hperform rfl
      | block rest h inv =>
        cases rest with
        | nil => exact afterBlock_context _ h inv
        | cons i is =>
          simp only [step, resume]
          split
          · rfl
          · exact hperform rfl

/-- What happens between runs does not change the context. -/
theorem Next.context_eq (h : Next m m') (idle : m.stack = []) : m'.context = m.context := by
  cases h with
  | step => rw [step_of_stack_nil m idle]
  | execute | share | leave => rfl
  | owned handlers o => exact deliver_context _ none handlers o
  | task idle' task => exact complete_context _ _ _

/-! ## How calls are answered -/

/-- How the calls of code are answered in a context that has a client, or none. -/
structure Answers (client : Option (Registry S)) (m : Machine S α) : Prop where
  /-- The first client is taken. -/
  taken : ∀ r, m.instr? = some (.setClient r) → client = none →
    m.step = ({ m.advance with context := { m.context with client := some r } } : Machine S α).emit
      (.refused none)
  /-- All others are refused, and nothing else happens. -/
  again : ∀ r, m.instr? = some (.setClient r) → client.isSome →
    m.step = m.advance.emit (.refused (some .alreadySet))
  /-- A service that is found runs its block. -/
  found : ∀ name block s, m.instr? = some (.service name block) → Selects client name (.ok s) →
    m.step = (m.advance.push .found).push (.code block)
  /-- One that is not found does not. -/
  refused : ∀ name block e, m.instr? = some (.service name block) →
    Selects client name (.error e) → m.step = m.advance.emit (.refused (some e))
  /-- A service returns behind its block, unless that panics. -/
  returned : ∀ below, m.stack = .found :: below →
    m.step = { m with
      stack := below
      trace := m.trace ++ if m.unwinding.isSome then [] else [.refused none] }
  handle : ∀ name s, m.instr? = some (.serviceHandle name) → Selects client name (.ok s) →
    m.step = m.advance.emit (.handle none)
  noHandle : ∀ name e, m.instr? = some (.serviceHandle name) → Selects client name (.error e) →
    m.step = m.advance.emit (.handle (some (.serviceUnavailable e.text)))

theorem answers (m : Machine S α) : m.Answers m.context.client where
  taken r hi hunset := by
    have hset : m.advance.context.setClient r = .ok { m.context with client := some r } := by
      rw [show m.advance.context = m.context from rfl, Context.setClient, hunset]
    rw [step_of_instr hi fun _ => rfl, perform, hset]
  again r hi hset := by
    obtain ⟨r', hr'⟩ := Option.isSome_iff_exists.1 hset
    have hrefused : m.advance.context.setClient r = .error .alreadySet := by
      rw [show m.advance.context = m.context from rfl, Context.setClient, hr']
    rw [step_of_instr hi fun _ => rfl, perform, hrefused]
  found name block s hi hselects := by
    have hfind : m.advance.context.find name = .ok s := Context.find_of_selects hselects
    rw [step_of_instr hi fun _ => rfl, perform, hfind]
  refused name block e hi hselects := by
    have hfind : m.advance.context.find name = .error e := Context.find_of_selects hselects
    rw [step_of_instr hi fun _ => rfl, perform, hfind]
  returned below hstack := by
    obtain ⟨context, ambient, shared, stack, unwinding, trace, tasks⟩ := m
    cases hstack
    cases unwinding with
    | none => rfl
    | some p => simp [step, unwind]
  handle name s hi hselects := by
    have hfind : m.advance.context.find name = .ok s := Context.find_of_selects hselects
    have hhandle : m.advance.context.handle name = .ok s := by
      rw [Context.handle_eq, hfind]
      rfl
    rw [step_of_instr hi fun _ => rfl, perform, hhandle]
  noHandle name e hi hselects := by
    have hfind : m.advance.context.find name = .error e := Context.find_of_selects hselects
    have hhandle : m.advance.context.handle name = .error (.serviceUnavailable e.text) := by
      rw [Context.handle_eq, hfind]
      rfl
    rw [step_of_instr hi fun _ => rfl, perform, hhandle]

end Machine

/-! ## Histories -/

namespace Crowd

variable {c c' : Crowd S α} {is : List (Instr S α)} {reportsBusy hasRuntime : Bool}

/-- In any history the client is the one that was set first. -/
theorem History.context_eq (h : History (Crowd.start ⟨none, reportsBusy, hasRuntime⟩) is c) :
    c.context = ⟨firstClient is, reportsBusy, hasRuntime⟩ := by
  -- A thread that takes a step sees the context that all of them share.
  induction h with
  | start => rfl
  | fork _ ambient ih => exact ih
  | @begin is c' j t m _ thread idle next ih => exact (next.context_eq idle).trans ih
  | @step is c' j t _ thread ih =>
    have hclient : (c'.seen t).context = ⟨firstClient is, reportsBusy, hasRuntime⟩ := ih
    show (c'.seen t).step.context = _
    cases hi : (c'.seen t).instr? with
    | none =>
      rw [Machine.step_context (by rw [hi]; nofun), hclient, Option.toList_none, List.append_nil]
    | some i =>
      rw [Option.toList_some, firstClient_append]
      cases hset : i.client? with
      | none =>
        rw [Option.or_none, Machine.step_context fun r hr => ?_, hclient]
        rw [hi] at hr
        rw [Option.some.inj hr] at hset
        cases hset
      | some r =>
        rw [client?_eq_some.1 hset] at hi
        have hanswers := (c'.seen t).answers
        rw [hclient] at hanswers
        cases hfirst : firstClient is with
        | none =>
          rw [hanswers.taken r hi hfirst, hclient]
          rfl
        | some r' =>
          rw [hanswers.again r hi (by simp [hfirst])]
          exact hclient.trans (by rw [hfirst]; rfl)

/-! ## Main result -/

/-- **Services by their last binding, the client by its first setting.** After any bindings a
registry has the service of the last one for each name, and the names that were bound, each once,
by their first one. Whatever threads do in a context that has no client, in any order, also inside
the blocks of services and after panics: its client is the one that was set first. That setting
succeeds; all others are refused and change nothing. Both ways to look a service up give the same
implementation or fail with the same text, by that client; the block of a service runs only if there
is one. Below it stays a frame that the thread comes back to, if nothing else it alone runs, and
that answers unless the block's panic takes it. -/
theorem bound_and_set_once :
    (∀ bs : List (String × S), (Registry.ofBindings bs).Records bs) ∧
    ∀ (reportsBusy hasRuntime : Bool) (is : List (Instr S α)) (c : Crowd S α),
      History (start ⟨none, reportsBusy, hasRuntime⟩) is c →
      let client := firstClient is
      c.context = ⟨client, reportsBusy, hasRuntime⟩ ∧
      (∀ name, ∃ a, Selects client name a ∧ c.context.find name = a ∧
        c.context.handle name = a.mapError fun e => .serviceUnavailable e.text) ∧
      ∀ j t, c.threads[j]? = some t →
        let m := c.seen t
        m.Answers client ∧
        ∀ top below, m.stack = top ++ .found :: below →
          (∃ n, (Machine.steps n m).stack = .found :: below) ∧
          ∀ is' c', History c is' c' →
            c'.Above j (.found :: below) ∨ c.CameBack j (.found :: below) c' := by
  refine ⟨Registry.ofBindings_records, fun reportsBusy hasRuntime is c reached => ?_⟩
  intro client
  have hcontext : c.context = ⟨client, reportsBusy, hasRuntime⟩ := reached.context_eq
  have hclient : c.context.client = client := by rw [hcontext]
  refine ⟨hcontext, fun name => ⟨_, ?_, rfl, c.context.handle_eq name⟩, fun j t thread => ?_⟩
  · rw [← hclient]
    exact c.context.find_selects name
  intro m
  refine ⟨?_, fun top below hstack => ⟨comes_back hstack, fun is' c' later => ?_⟩⟩
  · rw [← hclient]
    exact m.answers
  · exact later.above ⟨t, top, thread, hstack⟩

/-- A registry in which a name was bound twice. -/
def rebound : Registry Nat := .ofBindings [("clock", 1), ("store", 2), ("clock", 3)]

/-- A service is asked for before there is a client, and then again. Inside its block another
client is set. -/
def nested : List (Instr Nat Nat) :=
  [.service "clock" [.note "early"], .setClient rebound,
    .service "clock" [.setClient .empty, .serviceHandle "store"], .serviceHandle "mail"]

/-- The second client changes nothing, and the service is that of the last binding. -/
theorem nested_keeps_first :
    ∃ c : Crowd Nat Nat, History (start ⟨none, false, false⟩)
        [.service "clock" [.note "early"], .setClient rebound,
          .service "clock" [.setClient .empty, .serviceHandle "store"], .setClient .empty,
          .serviceHandle "store", .serviceHandle "mail"] c ∧
      c.trace = [.refused (some .missing), .refused none, .refused (some .alreadySet),
        .handle none, .refused none,
        .handle (some (.serviceUnavailable "no implementation bound for mail"))] ∧
      c.context.client = some rebound ∧ c.context.find "clock" = .ok 3 ∧
      c.context.handle "clock" = .ok 3 ∧ rebound.names = ["clock", "store"] ∧
      rebound.size = 2 := by
  have hbegan := ((History.start (c := start ⟨none, false, false⟩)).fork false).begin (j := 0) rfl
    rfl (.execute nested rfl)
  have hset := (hbegan.step (j := 0) rfl).step (j := 0) rfl
  have hblock := ((hset.step (j := 0) rfl).step (j := 0) rfl).step (j := 0) rfl
  have hreturned := ((hblock.step (j := 0) rfl).step (j := 0) rfl).step (j := 0) rfl
  obtain ⟨hbindings, hhistories⟩ := bound_and_set_once (S := Nat) (α := Nat)
  obtain ⟨hcontext, hlookups, -⟩ := hhistories false false _ _ hreturned
  have hrebound := hbindings [("clock", 1), ("store", 2), ("clock", 3)]
  have hclock : rebound.get? "clock" = some 3 :=
    (hrebound.last "clock" 3).2 ⟨[("clock", 1), ("store", 2)], [], rfl, List.not_mem_nil⟩
  have hclient := congrArg Context.client hcontext
  obtain ⟨a, -, hfind, hhandle⟩ := hlookups "clock"
  obtain rfl : .ok 3 = a := (Context.find_of_selects (.bound hclient hclock)).symm.trans hfind
  exact ⟨_, hreturned, rfl, hclient, hfind, hhandle, hrebound.names, hrebound.size⟩

end Crowd

end WrapperGen.Calls
