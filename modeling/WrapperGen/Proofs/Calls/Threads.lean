import WrapperGen.Proofs.Calls.Delivery
/-!
# Threads

Several threads run code at once. What a thread does at one step is a step of the machine; its
stack and its panic are its own, everything else is shared with the others.

* `History`: what threads do in any order, with the instructions that were performed.
* `step_spares`: a step leaves a continuation alone unless it performs an instruction that completes
  it.
* `History.above`: a thread keeps what is on its stack until it comes back to it.
-/

namespace WrapperGen.Calls

variable {S α : Type}

namespace Machine

variable {k : Nat} {m m' : Machine S α}

/-! ## The next instruction -/

/-- The instruction that the next step performs. -/
def instr? (m : Machine S α) : Option (Instr S α) :=
  match m.unwinding, m.stack with
  | none, .code (i :: _) :: _ | none, .block (i :: _) _ _ :: _ => some i
  | _, _ => none

/-- The machine without that instruction. -/
def advance (m : Machine S α) : Machine S α :=
  { m with
    stack :=
      match m.stack with
      | .code (_ :: is) :: fs => .code is :: fs
      | .block (_ :: is) h i :: fs => .block is h i :: fs
      | fs => fs }

theorem step_of_instr {i : Instr S α} (hi : m.instr? = some i)
    (hr : ∀ h : Handlers S α, h.register? i = none) : m.step = m.advance.perform i := by
  obtain ⟨context, ambient, shared, stack, unwinding, trace, tasks⟩ := m
  cases unwinding with
  | some p => cases hi
  | none =>
    rcases stack with _ | ⟨f, fs⟩
    · cases hi
    · cases f with
      | code rest =>
        cases rest with
        | nil => cases hi
        | cons i' is => cases hi; rfl
      | block rest h inv =>
        cases rest with
        | nil => cases hi
        | cons i' is =>
          cases hi
          simp only [step, resume, hr h]
          rfl
      | _ => cases hi

theorem advance_spares (m : Machine S α) : Spares k m m.advance := by
  refine ⟨rfl, rfl, rfl, fun panic hp => ?_⟩
  unfold advance at hp
  split at hp <;> rename_i hstack
  · rw [hstack]
    rcases List.mem_cons.1 hp with hp | hp
    · cases hp
    · exact .tail _ hp
  · rw [hstack]
    rcases List.mem_cons.1 hp with hp | hp
    · cases hp
    · exact .tail _ hp
  · exact hp

/-! ## Steps that complete something else -/

theorem perform_spares {i : Instr S α} (hi : ∀ o, i ≠ .complete k o) :
    Spares k m (m.perform i) := by
  cases i with
  | note _ => exact emit_spares rfl
  | onSuccess _ _ | onFail _ _ => exact .refl k m
  | panic p => exact ⟨rfl, rfl, rfl, fun _ h => h⟩
  | invoke i block =>
    exact ((signal_spares true).trans (push_spares (f := .busy) (by simp))).trans
      (push_spares (by simp))
  | guarded body =>
    exact ((signal_spares true).trans (push_spares (f := .busy) (by simp))).trans
      (push_spares (by simp))
  | complete k' o =>
    have hne : k' ≠ k := fun hk => hi o (by rw [hk])
    simp only [perform, tryComplete]
    split
    · exact (push_spares (f := .won) (by simp)).trans
        (complete_spares (fun hk => absurd hk hne) o)
    · exact emit_spares rfl
    · exact .refl k m
  | probe k' =>
    simp only [perform]
    split
    · exact emit_spares rfl
    · exact .refl k m
  | setClient r =>
    simp only [perform]
    split
    · rename_i c _
      have hclient : Spares k m { m with context := c } := ⟨rfl, rfl, rfl, fun _ h => h⟩
      exact hclient.trans (emit_spares rfl)
    · exact emit_spares rfl
  | service name block =>
    simp only [perform]
    split
    · exact (push_spares (f := .found) (by simp)).trans (push_spares (by simp))
    · exact emit_spares rfl
  | serviceHandle name =>
    simp only [perform]
    split
    · exact emit_spares rfl
    · exact emit_spares rfl

theorem afterBlock_spares (hk : k < m.shared.length) (h : Handlers S α) (i : Invocation S α) :
    Spares k m (m.afterBlock h i) := by
  have hne : m.shared.length ≠ k := by omega
  rcases afterBlock_settling h i with settling | ⟨panic, settling⟩
  · exact settle_spares hne h settling
  · exact dispatch_spares hne h panic settling

/-- A step spares a continuation that no boundary of the stack belongs to, unless it performs an
instruction that completes it. -/
theorem step_spares (hk : k < m.shared.length) (hb : ∀ panic, .boundary k panic ∉ m.stack)
    (hi : ∀ o, m.instr? ≠ some (.complete k o)) : Spares k m m.step := by
  obtain ⟨context, ambient, shared, stack, unwinding, trace, tasks⟩ := m
  cases stack with
  | nil => exact .refl k _
  | cons f fs =>
    have hpop : Spares k (⟨context, ambient, shared, f :: fs, unwinding, trace, tasks⟩ :
        Machine S α) ⟨context, ambient, shared, fs, unwinding, trace, tasks⟩ := pop_spares rfl
    have hf : ∀ k' panic, f = .boundary k' panic → k' = k →
        (⟨context, ambient, shared, fs, none, trace, tasks⟩ : Machine S α).IsDone k := by
      intro k' panic hf hk'
      rw [hf, hk'] at hb
      exact absurd (.head _) (hb panic)
    refine hpop.trans ?_
    cases unwinding with
    | some p =>
      cases f with
      | code _ | block _ _ _ | won | found => exact .refl k _
      | busy => exact signal_spares false
      | boundary k' panic =>
        have hcaught : Spares k (⟨context, ambient, shared, fs, some p, trace, tasks⟩ :
            Machine S α) ⟨context, ambient, shared, fs, none, trace, tasks⟩ :=
          ⟨rfl, rfl, rfl, fun _ h => h⟩
        exact hcaught.trans (complete_spares (hf k' panic rfl) _)
    | none =>
      cases f with
      | won | found => exact emit_spares rfl
      | busy => exact signal_spares false
      | boundary k' panic =>
        cases panic with
        | none => exact .refl k _
        | some p => exact complete_spares (hf k' (some p) rfl) _
      | code rest =>
        cases rest with
        | nil => exact .refl k _
        | cons i is =>
          exact (push_spares (f := .code is) (by simp)).trans
            (perform_spares fun o ho => hi o (congrArg some ho))
      | block rest h inv =>
        cases rest with
        | nil =>
          exact afterBlock_spares (m := ⟨context, ambient, shared, fs, none, trace, tasks⟩) hk h inv
        | cons i is =>
          simp only [step, resume]
          split
          · exact push_spares (by simp)
          · exact (push_spares (f := .block is h inv) (by simp)).trans
              (perform_spares fun o ho => hi o (congrArg some ho))

/-- A step keeps what is below the top of the stack. -/
theorem step_below {top base : List (Frame S α)} (h : m.stack = top ++ base) (htop : top ≠ []) :
    ∃ top', m.step.stack = top' ++ base := by
  have hm : m = ({ m with stack := top } : Machine S α).atop base := by
    obtain ⟨context, ambient, shared, stack, unwinding, trace, tasks⟩ := m
    cases h
    rfl
  refine ⟨({ m with stack := top } : Machine S α).step.stack, ?_⟩
  rw [hm, step_atop _ base (by exact htop)]
  rfl

end Machine

/-! ## Threads and what they share -/

structure Thread (S α : Type) where
  stack : List (Frame S α)
  unwinding : Option Panic
  /-- Whether the thread is inside a runtime. -/
  ambient : Bool

structure Crowd (S α : Type) where
  context : Context S
  shared : List (Shared S α)
  trace : List (Event α)
  tasks : List (Task α)
  threads : List (Thread S α)

namespace Crowd

def start (context : Context S) : Crowd S α := ⟨context, [], [], [], []⟩

/-- What a thread works on. -/
def seen (c : Crowd S α) (t : Thread S α) : Machine S α :=
  ⟨c.context, t.ambient, c.shared, t.stack, t.unwinding, c.trace, c.tasks⟩

/-- The crowd when thread `j` has left `m` behind. -/
def put (c : Crowd S α) (j : Nat) (m : Machine S α) : Crowd S α :=
  ⟨m.context, m.shared, m.trace, m.tasks, c.threads.set j ⟨m.stack, m.unwinding, m.ambient⟩⟩

/-- A new thread with nothing to do. -/
def fork (c : Crowd S α) (ambient : Bool) : Crowd S α :=
  { c with threads := c.threads ++ [⟨[], none, ambient⟩] }

/-- What threads do in some order, with the instructions that were performed. -/
inductive History (c : Crowd S α) : List (Instr S α) → Crowd S α → Prop
  | start : History c [] c
  | step {is : List (Instr S α)} {c' : Crowd S α} {j : Nat} {t : Thread S α}
      (earlier : History c is c') (thread : c'.threads[j]? = some t) :
      History c (is ++ (c'.seen t).instr?.toList) (c'.put j (c'.seen t).step)
  /-- A thread that has nothing to do begins something. -/
  | begin {is : List (Instr S α)} {c' : Crowd S α} {j : Nat} {t : Thread S α} {m : Machine S α}
      (earlier : History c is c') (thread : c'.threads[j]? = some t) (idle : t.stack = [])
      (next : Machine.Next (c'.seen t) m) : History c is (c'.put j m)
  | fork {is : List (Instr S α)} {c' : Crowd S α} (earlier : History c is c') (ambient : Bool) :
      History c is (c'.fork ambient)

/-- All threads as one machine, for what is said of continuations. -/
def all (c : Crowd S α) : Machine S α :=
  ⟨c.context, false, c.shared, c.threads.flatMap (·.stack), none, c.trace, c.tasks⟩

variable {c c' : Crowd S α} {is : List (Instr S α)} {j k : Nat} {t : Thread S α}
  {m : Machine S α}

theorem mem_all {f : Frame S α} : f ∈ c.all.stack ↔ ∃ t ∈ c.threads, f ∈ t.stack :=
  List.mem_flatMap

theorem stack_subset_all (thread : c.threads[j]? = some t) : (c.seen t).stack ⊆ c.all.stack :=
  fun _ hf => mem_all.2 ⟨t, List.mem_of_getElem? thread, hf⟩

/-- What one thread spares all threads spare. -/
theorem put_spares (thread : c.threads[j]? = some t) (h : Machine.Spares k (c.seen t) m) :
    Machine.Spares k c.all (c.put j m).all := by
  refine ⟨h.slot, h.deliveries, h.pending, fun panic hp => ?_⟩
  obtain ⟨t', ht', hp⟩ := mem_all.1 hp
  rcases List.mem_or_eq_of_mem_set ht' with ht' | rfl
  · exact mem_all.2 ⟨t', ht', hp⟩
  · exact stack_subset_all thread (h.boundary panic hp)

theorem fork_all (c : Crowd S α) (ambient : Bool) : (c.fork ambient).all = c.all := by
  simp [all, fork]

/-! ## Numbers that are not given yet -/

theorem unknown_seen (thread : c.threads[j]? = some t) (h : c.all.Unknown k) :
    (c.seen t).Unknown k :=
  ⟨h.deliveries, h.pending, fun panic hp => h.boundary panic (stack_subset_all thread hp)⟩

theorem put_numbered (thread : c.threads[j]? = some t) (next : Machine.Next (c.seen t) m)
    (hc : c.all.Numbered) : (c.put j m).all.Numbered := by
  intro k hk
  have hlength : c.all.shared.length ≤ k := Nat.le_trans next.length_le hk
  have hunknown := unknown_seen thread (hc k hlength)
  exact (put_spares thread (next.spares_of_pending (hunknown.closed hlength) (.inr hk)
    hunknown.pending)).unknown (hc k hlength)

/-- No thread knows a continuation that is not shared yet. -/
theorem History.numbered {context : Context S} (h : History (Crowd.start context) is c) :
    c.all.Numbered := by
  induction h with
  | start => exact fun k _ => ⟨rfl, rfl, fun _ => List.not_mem_nil⟩
  | step _ thread ih => exact put_numbered thread (.step _) ih
  | begin _ thread _ next ih => exact put_numbered thread next ih
  | fork _ ambient ih =>
    rw [fork_all]
    exact ih

/-! ## Coming back -/

/-- The thread has the frames `base` at the bottom of its stack. -/
def Above (c : Crowd S α) (j : Nat) (base : List (Frame S α)) : Prop :=
  ∃ t top, c.threads[j]? = some t ∧ t.stack = top ++ base

/-- The thread came back to the frames `base` and went on from there. -/
def CameBack (c : Crowd S α) (j : Nat) (base : List (Frame S α)) (c' : Crowd S α) : Prop :=
  ∃ is₁ is₂ c₁ t₁, History c is₁ c₁ ∧ c₁.threads[j]? = some t₁ ∧ t₁.stack = base ∧
    History (c₁.put j (c₁.seen t₁).step) is₂ c'

theorem put_threads_self (thread : c.threads[j]? = some t) :
    (c.put j m).threads[j]? = some ⟨m.stack, m.unwinding, m.ambient⟩ :=
  List.getElem?_set_self (List.getElem?_eq_some_iff.1 thread).1

theorem put_threads_other {j' : Nat} (h : j' ≠ j) : (c.put j' m).threads[j]? = c.threads[j]? :=
  List.getElem?_set_ne h

theorem fork_threads (thread : c.threads[j]? = some t) (ambient : Bool) :
    (c.fork ambient).threads[j]? = some t := by
  rw [fork, List.getElem?_append_left (List.getElem?_eq_some_iff.1 thread).1, thread]

/-- A thread keeps the frames below it until it comes back to them. -/
theorem History.above {f : Frame S α} {fs : List (Frame S α)} (h : History c is c')
    (hc : c.Above j (f :: fs)) : c'.Above j (f :: fs) ∨ c.CameBack j (f :: fs) c' := by
  induction h with
  | start => exact .inl hc
  | @step is c' j' t' earlier thread ih =>
    rcases ih with ⟨t, top, ht, hstack⟩ | ⟨is₁, is₂, c₁, t₁, h₁, ht₁, hstack₁, h₂⟩
    · by_cases hj : j' = j
      · obtain rfl : t' = t := by
          rw [hj, ht] at thread
          exact (Option.some.inj thread).symm
        subst hj
        cases top with
        | nil => exact .inr ⟨is, [], c', t', earlier, ht, hstack, .start⟩
        | cons g top =>
          obtain ⟨top', htop⟩ :=
            Machine.step_below (m := c'.seen t') hstack (List.cons_ne_nil g top)
          exact .inl ⟨_, top', put_threads_self ht, htop⟩
      · exact .inl ⟨t, top, (put_threads_other hj).trans ht, hstack⟩
    · exact .inr ⟨is₁, _, c₁, t₁, h₁, ht₁, hstack₁, .step h₂ thread⟩
  | @begin is c' j' t' m earlier thread idle next ih =>
    rcases ih with ⟨t, top, ht, hstack⟩ | ⟨is₁, is₂, c₁, t₁, h₁, ht₁, hstack₁, h₂⟩
    · by_cases hj : j' = j
      · obtain rfl : t' = t := by
          rw [hj, ht] at thread
          exact (Option.some.inj thread).symm
        rw [idle] at hstack
        cases top <;> cases hstack
      · exact .inl ⟨t, top, (put_threads_other hj).trans ht, hstack⟩
    · exact .inr ⟨is₁, is₂, c₁, t₁, h₁, ht₁, hstack₁, .begin h₂ thread idle next⟩
  | fork earlier ambient ih =>
    rcases ih with ⟨t, top, ht, hstack⟩ | ⟨is₁, is₂, c₁, t₁, h₁, ht₁, hstack₁, h₂⟩
    · exact .inl ⟨t, top, fork_threads ht ambient, hstack⟩
    · exact .inr ⟨is₁, is₂, c₁, t₁, h₁, ht₁, hstack₁, .fork h₂ ambient⟩

/-- A thread that runs alone comes back. -/
theorem comes_back {top base : List (Frame S α)} (h : m.stack = top ++ base) :
    ∃ n, (Machine.steps n m).stack = base := by
  have hm : m = ({ m with stack := top } : Machine S α).atop base := by
    obtain ⟨context, ambient, shared, stack, unwinding, trace, tasks⟩ := m
    cases h
    rfl
  obtain ⟨n, hn⟩ := Machine.steps_atop ({ m with stack := top } : Machine S α) base
  refine ⟨n, ?_⟩
  rw [hm, hn, Machine.atop, Machine.run_stack]
  rfl

end Crowd

end WrapperGen.Calls
