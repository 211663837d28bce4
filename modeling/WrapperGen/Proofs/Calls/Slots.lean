import WrapperGen.Proofs.Calls.Moves
/-!
# Shared continuations

* `Closed`: a continuation that is completed already, or that only a task can complete.
* `Moves.spares`: steps and runs leave such a continuation as it is, with what its handlers got and
  the tasks that will complete it (`Spares`).
-/

namespace WrapperGen.Calls.Machine

variable {S α : Type}

def deliveredTo? (k : Nat) : Event α → Option (Option String × Outcome α)
  | .received (some k') tag o => if k' = k then some (tag, o) else none
  | _ => none

/-- What the handlers of a continuation got, each with the tag of the handler. -/
def deliveries (m : Machine S α) (k : Nat) : List (Option String × Outcome α) :=
  m.trace.filterMap (deliveredTo? k)

/-- The outcomes of the tasks that will complete a continuation. -/
def pending (m : Machine S α) (k : Nat) : List (Outcome α) :=
  (m.tasks.filter (·.continuation == k)).map (·.outcome)

def IsDone (m : Machine S α) (k : Nat) : Prop :=
  ∃ held o, m.shared[k]? = some ⟨held, .completed o⟩

/-- No step can complete the continuation: it is completed, or neither code nor a boundary can
complete it. -/
def Closed (m : Machine S α) (k : Nat) : Prop :=
  m.IsDone k ∨
    (∀ h, m.shared[k]? ≠ some ⟨true, .waiting h⟩) ∧ ∀ panic, .boundary k panic ∉ m.stack

/-- Nothing happened to a continuation. -/
structure Spares (k : Nat) (m m' : Machine S α) : Prop where
  slot : m'.shared[k]? = m.shared[k]?
  deliveries : m'.deliveries k = m.deliveries k
  pending : m'.pending k = m.pending k
  boundary : ∀ panic, .boundary k panic ∈ m'.stack → .boundary k panic ∈ m.stack

variable {k : Nat} {m m' m'' : Machine S α}

theorem IsDone.lt (h : m.IsDone k) : k < m.shared.length := by
  obtain ⟨held, o, hk⟩ := h
  exact (List.getElem?_eq_some_iff.1 hk).1

namespace Spares

theorem refl (k : Nat) (m : Machine S α) : Spares k m m := ⟨rfl, rfl, rfl, fun _ h => h⟩

theorem trans (h : Spares k m m') (h' : Spares k m' m'') : Spares k m m'' where
  slot := h'.slot.trans h.slot
  deliveries := h'.deliveries.trans h.deliveries
  pending := h'.pending.trans h.pending
  boundary panic hp := h.boundary panic (h'.boundary panic hp)

theorem isDone (h : Spares k m m') (hk : m.IsDone k) : m'.IsDone k := by
  rw [IsDone, h.slot]
  exact hk

theorem lt (h : Spares k m m') (hk : k < m.shared.length) : k < m'.shared.length := by
  have hslot := h.slot
  rw [List.getElem?_eq_getElem hk] at hslot
  exact (List.getElem?_eq_some_iff.1 hslot).1

theorem closed (h : Spares k m m') (hk : m.Closed k) : m'.Closed k := by
  rcases hk with hk | ⟨hk, hboundary⟩
  · exact .inl (h.isDone hk)
  · refine .inr ⟨?_, fun p hp => hboundary p (h.boundary p hp)⟩
    rw [h.slot]
    exact hk

end Spares

/-! ## Shared continuations -/

theorem push_shared (m : Machine S α) (f : Frame S α) : (m.push f).shared = m.shared := rfl

theorem signal_shared (m : Machine S α) (on : Bool) : (m.signal on).shared = m.shared := by
  unfold signal
  split <;> rfl

theorem deliver_shared (m : Machine S α) (k : Option Nat) (h : Handlers S α) (o : Outcome α) :
    (m.deliver k h o).shared = m.shared := by
  unfold deliver
  split <;> rfl

theorem share_length (m : Machine S α) (held : Bool) (h : Handlers S α) :
    (m.share held h).shared.length = m.shared.length + 1 := List.length_append

theorem complete_length (m : Machine S α) (k : Nat) (o : Outcome α) :
    (m.complete k o).shared.length = m.shared.length := by
  unfold complete
  split
  · rw [deliver_shared, List.length_set]
  · rfl

theorem settling_length {k' : Nat} (h : Settling k' m m') : m'.shared.length = m.shared.length := by
  cases h with
  | complete o => exact complete_length m k' o
  | spawn o => rfl
  | nothing => rfl

/-- Shared continuations keep their numbers. -/
theorem Move.length_le (h : Move m m') : m.shared.length ≤ m'.shared.length := by
  cases h with
  | emit | push | pop | setClient | panic | returned => exact Nat.le_refl _
  | enter => exact Nat.le_of_eq (by rw [push_shared, signal_shared])
  | leave => exact Nat.le_of_eq (by rw [signal_shared])
  | complete | caught => exact Nat.le_of_eq (by rw [complete_length])
  | settle handlers settling =>
    rw [settling_length settling, share_length]
    omega
  | dispatch handlers panic settling =>
    rw [settling_length settling, push_shared, share_length]
    omega

/-! ## Moves -/

theorem emit_spares {e : Event α} (h : deliveredTo? k e = none) : Spares k m (m.emit e) :=
  ⟨rfl, by simp [deliveries, emit, h], rfl, fun _ h => h⟩

theorem push_spares {f : Frame S α} (h : ∀ panic, f ≠ .boundary k panic) :
    Spares k m (m.push f) := by
  refine ⟨rfl, rfl, rfl, fun panic hp => ?_⟩
  rcases List.mem_cons.1 hp with hp | hp
  · exact absurd hp.symm (h panic)
  · exact hp

theorem signal_spares (on : Bool) : Spares k m (m.signal on) := by
  unfold signal
  split
  · exact emit_spares rfl
  · exact .refl k m

theorem share_spares (h : k ≠ m.shared.length) (held : Bool) (handlers : Handlers S α) :
    Spares k m (m.share held handlers) := by
  refine ⟨?_, rfl, rfl, fun _ h => h⟩
  rcases Nat.lt_or_gt_of_ne h with hlt | hgt
  · exact List.getElem?_append_left hlt
  · have hlength := share_length m held handlers
    rw [List.getElem?_eq_none (by omega), List.getElem?_eq_none (by omega)]

theorem spawn_spares {k' : Nat} (h : k' ≠ k) (o : Outcome α) : Spares k m (m.spawn k' o) :=
  ⟨rfl, rfl, by simp [pending, spawn, h], fun _ h => h⟩

theorem deliver_spares {k' : Option Nat} (h : k' ≠ some k) (handlers : Handlers S α)
    (o : Outcome α) : Spares k m (m.deliver k' handlers o) := by
  unfold deliver
  split
  · refine (emit_spares ?_).trans (push_spares fun _ => nofun)
    unfold deliveredTo?
    split
    · rename_i hevent
      cases hevent
      rw [if_neg fun hk => h (by rw [hk])]
    · rfl
  · exact .refl k m

/-- Completing another continuation, or again the same, spares it. -/
theorem complete_spares {k' : Nat} (h : k' = k → m.IsDone k) (o : Outcome α) :
    Spares k m (m.complete k' o) := by
  unfold complete
  split
  · rename_i held handlers hk'
    have hne : k' ≠ k := by
      intro hk
      obtain ⟨held', o', hdone⟩ := h hk
      rw [← hk, hk'] at hdone
      cases hdone
    have hset : Spares k m { m with shared := m.shared.set k' ⟨held, .completed o⟩ } :=
      ⟨List.getElem?_set_ne hne, rfl, rfl, fun _ h => h⟩
    exact hset.trans (deliver_spares (fun hk => hne (Option.some.inj hk)) handlers o)
  · exact .refl k m

theorem settling_spares {k' : Nat} (h : k' ≠ k) (hs : Settling k' m m') : Spares k m m' := by
  cases hs with
  | complete o => exact complete_spares (fun hk => absurd hk h) o
  | spawn o => exact spawn_spares h o
  | nothing => exact .refl k m

theorem deliveredTo?_of_isPlain {e : Event α} (h : e.isPlain) : deliveredTo? k e = none := by
  cases e with
  | received _ _ _ => cases h
  | _ => rfl

theorem pop_spares {f : Frame S α} {fs : List (Frame S α)} (h : m.stack = f :: fs) :
    Spares k m { m with stack := fs } := by
  refine ⟨rfl, rfl, rfl, fun panic hp => ?_⟩
  rw [h]
  exact .tail _ hp

/-- The end of a boundary completes another continuation, or again the same. -/
theorem boundary_isDone {k' : Nat} {panic : Option Panic} {fs : List (Frame S α)}
    (h : m.Closed k) (hstack : m.stack = .boundary k' panic :: fs) : k' = k → m.IsDone k := by
  intro hk
  rcases h with h | ⟨-, hboundary⟩
  · exact h
  · refine absurd ?_ (hboundary panic)
    rw [hstack, hk]
    exact .head _

/-- Code completes another continuation, or again the same. -/
theorem held_isDone {k' : Nat} {handlers : Handlers S α} (h : m.Closed k)
    (held : m.held? k' = some (.waiting handlers)) : k' = k → m.IsDone k := by
  intro hk
  rcases h with h | ⟨hslot, -⟩
  · exact h
  · rw [hk, held?] at held
    split at held <;> cases held
    exact absurd ‹_› (hslot handlers)

/-- A wrapper that shares and settles a continuation spares the others. -/
theorem settle_spares (hne : m.shared.length ≠ k) (handlers : Handlers S α)
    (settling : Settling m.shared.length (m.share false handlers) m') : Spares k m m' :=
  (share_spares hne.symm false handlers).trans (settling_spares hne settling)

theorem dispatch_spares (hne : m.shared.length ≠ k) (handlers : Handlers S α)
    (panic : Option Panic) (settling : Settling m.shared.length
      ((m.share false handlers).push (.boundary m.shared.length panic)) m') : Spares k m m' := by
  have hpush : Spares k (m.share false handlers) _ :=
    push_spares (f := .boundary m.shared.length panic) fun _ hf => hne (Frame.boundary.inj hf).1
  exact ((share_spares hne.symm false handlers).trans hpush).trans (settling_spares hne settling)

theorem Move.spares (h : Move m m') (hk : m.Closed k)
    (hshared : k < m.shared.length ∨ m'.shared.length ≤ k) : Spares k m m' := by
  cases h with
  | emit e plain => exact emit_spares (deliveredTo?_of_isPlain plain)
  | push f plain => exact push_spares fun panic hf => by rw [hf] at plain; cases plain
  | pop top plain => exact pop_spares top
  | enter => exact (signal_spares true).trans (push_spares fun _ => nofun)
  | leave top => exact (pop_spares top).trans (signal_spares false)
  | setClient _ => exact ⟨rfl, rfl, rfl, fun _ h => h⟩
  | panic p => exact ⟨rfl, rfl, rfl, fun _ h => h⟩
  | complete held o => exact complete_spares (held_isDone hk held) o
  | returned top => exact pop_spares top
  | @caught k' panic fs top e =>
    have hcaught : Spares k m { m with stack := fs, unwinding := none } := by
      refine (pop_spares top).trans ?_
      exact ⟨rfl, rfl, rfl, fun _ h => h⟩
    exact hcaught.trans (complete_spares (fun h => hcaught.isDone (boundary_isDone hk top h)) _)
  | settle handlers settling =>
    refine settle_spares ?_ handlers settling
    rw [settling_length settling, share_length] at hshared
    omega
  | dispatch handlers panic settling =>
    refine dispatch_spares ?_ handlers panic settling
    rw [settling_length settling, push_shared, share_length] at hshared
    omega

theorem Moves.length_le (h : Moves m m') : m.shared.length ≤ m'.shared.length :=
  h.keeps (P := fun m' => m.shared.length ≤ m'.shared.length)
    (fun _ _ hmove hm => Nat.le_trans hm hmove.length_le) (Nat.le_refl _)

theorem Moves.spares (h : Moves m m') (hk : m.Closed k)
    (hshared : k < m.shared.length ∨ m'.shared.length ≤ k) : Spares k m m' := by
  induction h with
  | refl => exact .refl k m
  | @tail m₁ m₂ _ hmove ih =>
    have hlength := hmove.length_le
    have hspares := ih (hshared.imp id (Nat.le_trans hlength))
    exact hspares.trans (hmove.spares (hspares.closed hk) (hshared.imp hspares.lt id))

end WrapperGen.Calls.Machine
