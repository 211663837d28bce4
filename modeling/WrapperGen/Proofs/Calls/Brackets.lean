import WrapperGen.Proofs.Calls.Moves
/-!
# Busy signals

* `Bracketed`: the signals between two states of a machine lead from the guards on the stack of the
  first to those on the stack of the second.
* `Moves.bracketed`: what steps and runs do is `Bracketed`.
* `balanced_of_level`: signals that lead from no guards to no guards are a bracket word.
-/

namespace WrapperGen.Calls

/-! ## Bracket words -/

/-- Words of brackets, where `true` opens and `false` closes. -/
inductive Balanced : List Bool → Prop
  | nil : Balanced []
  | bracket {u v : List Bool} : Balanced u → Balanced v → Balanced (true :: u ++ false :: v)

/-- How many brackets are open after a word, unless it closes more than are open. -/
def level : Nat → List Bool → Option Nat
  | d, [] => some d
  | d, true :: w => level (d + 1) w
  | 0, false :: _ => none
  | d + 1, false :: w => level d w

theorem level_append {d e : Nat} {u : List Bool} (h : level d u = some e) (v : List Bool) :
    level d (u ++ v) = level e v := by
  fun_induction level d u with
  | case1 d => cases h; rfl
  | case2 d u ih => exact ih h
  | case3 => cases h
  | case4 d u ih => exact ih h

/-- The first bracket that closes below a level. -/
theorem split_of_level {d : Nat} (w : List Bool) (h : level (d + 1) w = some 0) :
    ∃ u v, w = u ++ false :: v ∧ Balanced u ∧ level d v = some 0 := by
  generalize hn : w.length = n
  induction n using Nat.strongRecOn generalizing w d with
  | _ n ih =>
    cases w with
    | nil => cases h
    | cons b w =>
      rw [List.length_cons] at hn
      cases b with
      | false => exact ⟨[], w, rfl, .nil, h⟩
      | true =>
        obtain ⟨u₁, v₁, rfl, hu₁, hv₁⟩ := ih w.length (by omega) w h rfl
        rw [List.length_append, List.length_cons] at hn
        obtain ⟨u₂, v₂, rfl, hu₂, hv₂⟩ := ih v₁.length (by omega) v₁ hv₁ rfl
        exact ⟨true :: u₁ ++ false :: u₂, v₂, by simp, .bracket hu₁ hu₂, hv₂⟩

theorem balanced_of_level (w : List Bool) (h : level 0 w = some 0) : Balanced w := by
  generalize hn : w.length = n
  induction n using Nat.strongRecOn generalizing w with
  | _ n ih =>
    cases w with
    | nil => exact .nil
    | cons b w =>
      cases b with
      | false => cases h
      | true =>
        obtain ⟨u, v, rfl, hu, hv⟩ := split_of_level w h
        refine .bracket hu (ih v.length ?_ v hv rfl)
        simp only [List.length_cons, List.length_append] at hn
        omega

namespace Machine

variable {S α : Type}

/-! ## Signals and guards -/

def signalOf? : Event α → Option Bool
  | .busy on => some on
  | _ => none

/-- The signals so far. -/
def signals (m : Machine S α) : List Bool := m.trace.filterMap signalOf?

def guards : List (Frame S α) → Nat
  | [] => 0
  | .busy :: fs => guards fs + 1
  | _ :: fs => guards fs

/-- The signals from `m` to `m'` lead from the guards of one to those of the other. If nobody is
told, there are none. -/
structure Bracketed (m m' : Machine S α) : Prop where
  context : m'.context.reportsBusy = m.context.reportsBusy
  signals : ∃ w, m'.signals = m.signals ++ w ∧
    if m.context.reportsBusy then level (guards m.stack) w = some (guards m'.stack) else w = []

variable {m m' m'' : Machine S α}

theorem Bracketed.trans (h : Bracketed m m') (h' : Bracketed m' m'') : Bracketed m m'' := by
  obtain ⟨hcontext, u, hu, hlevel⟩ := h
  obtain ⟨hcontext', v, hv, hlevel'⟩ := h'
  refine ⟨hcontext'.trans hcontext, u ++ v, by rw [hv, hu, List.append_assoc], ?_⟩
  rw [hcontext] at hlevel'
  split at hlevel <;> rename_i hreports
  · rw [if_pos hreports] at hlevel' ⊢
    rw [level_append hlevel, hlevel']
  · rw [if_neg hreports] at hlevel' ⊢
    rw [hlevel, hlevel']
    rfl

/-- Nothing was signalled and no guard came or went. -/
theorem Bracketed.of_eq (hcontext : m'.context.reportsBusy = m.context.reportsBusy)
    (hsignals : m'.signals = m.signals) (hguards : guards m'.stack = guards m.stack) :
    Bracketed m m' := by
  refine ⟨hcontext, [], by rw [hsignals, List.append_nil], ?_⟩
  split
  · rw [level, hguards]
  · rfl

theorem Bracketed.refl (m : Machine S α) : Bracketed m m := .of_eq rfl rfl rfl

theorem signals_emit {e : Event α} (h : signalOf? e = none) : (m.emit e).signals = m.signals := by
  simp [signals, emit, h]

theorem emit_bracketed {e : Event α} (h : signalOf? e = none) : Bracketed m (m.emit e) :=
  .of_eq rfl (signals_emit h) rfl

theorem signals_signal (on : Bool) :
    (m.signal on).signals = m.signals ++ if m.context.reportsBusy then [on] else [] := by
  unfold signal
  split
  · simp [signals, emit, signalOf?]
  · rw [List.append_nil]

theorem signal_context (on : Bool) : (m.signal on).context = m.context := by
  unfold signal
  split <;> rfl

theorem signal_stack (on : Bool) : (m.signal on).stack = m.stack := by
  unfold signal
  split <;> rfl

/-- Signalling the beginning and guarding the end. -/
theorem enter_bracketed : Bracketed m ((m.signal true).push .busy) := by
  refine ⟨by rw [push, signal_context], _, signals_signal true, ?_⟩
  split
  · rw [push, signal_stack]
    rfl
  · rfl

/-- Signalling the end in the place of a guard. -/
theorem leave_bracketed (h : m.stack = .busy :: m'.stack) (hcontext : m'.context = m.context)
    (htrace : m'.trace = m.trace) : Bracketed m (m'.signal false) := by
  refine ⟨by rw [signal_context, hcontext], if m.context.reportsBusy then [false] else [], ?_, ?_⟩
  · rw [signals_signal, hcontext, signals, htrace]
    rfl
  · split
    · rw [h, signal_stack]
      rfl
    · rfl

/-! ## Moves -/

theorem deliver_bracketed (k : Option Nat) (h : Handlers S α) (o : Outcome α) :
    Bracketed m (m.deliver k h o) := by
  unfold deliver
  split
  · exact (emit_bracketed (m := m) (e := .received k _ o) rfl).trans (.of_eq rfl rfl rfl)
  · exact .refl m

theorem complete_bracketed (k : Nat) (o : Outcome α) : Bracketed m (m.complete k o) := by
  unfold complete
  split
  · refine Bracketed.trans ?_ (deliver_bracketed _ _ _)
    exact .of_eq rfl rfl rfl
  · exact .refl m

theorem settling_bracketed {k : Nat} (h : Settling k m m') : Bracketed m m' := by
  cases h with
  | complete o => exact complete_bracketed k o
  | spawn o => exact .of_eq rfl rfl rfl
  | nothing => exact .refl m

theorem signalOf?_of_isPlain {e : Event α} (h : e.isPlain) : signalOf? e = none := by
  cases e with
  | busy on => cases h
  | _ => rfl

theorem guards_of_isPlain {f : Frame S α} (h : f.isPlain) (fs : List (Frame S α)) :
    guards (f :: fs) = guards fs := by
  cases f with
  | busy => cases h
  | _ => rfl

theorem setClient_reportsBusy {c c' : Context S} {r : Registry S} (h : c.setClient r = .ok c') :
    c'.reportsBusy = c.reportsBusy := by
  unfold Context.setClient at h
  split at h <;> cases h
  rfl

theorem Move.bracketed (h : Move m m') : Bracketed m m' := by
  cases h with
  | emit e plain => exact emit_bracketed (signalOf?_of_isPlain plain)
  | push f plain => exact .of_eq rfl rfl (guards_of_isPlain plain m.stack)
  | pop top plain =>
    refine .of_eq rfl rfl ?_
    rw [top, guards_of_isPlain plain]
  | enter => exact enter_bracketed
  | leave top => exact leave_bracketed top rfl rfl
  | setClient set => exact .of_eq (setClient_reportsBusy set) rfl rfl
  | panic p => exact .of_eq rfl rfl rfl
  | complete held o => exact complete_bracketed _ o
  | returned top =>
    refine .of_eq rfl rfl ?_
    rw [top]
    rfl
  | @caught k panic fs top e =>
    have hcaught : Bracketed m { m with stack := fs, unwinding := none } := by
      refine .of_eq rfl rfl ?_
      rw [top]
      rfl
    exact hcaught.trans (complete_bracketed k _)
  | settle h settling =>
    have hshare : Bracketed m (m.share false h) := .of_eq rfl rfl rfl
    exact hshare.trans (settling_bracketed settling)
  | dispatch h panic settling =>
    have hshare : Bracketed m ((m.share false h).push (.boundary m.shared.length panic)) :=
      .of_eq rfl rfl rfl
    exact hshare.trans (settling_bracketed settling)

theorem Moves.bracketed (h : Moves m m') : Bracketed m m' :=
  h.keeps (P := Bracketed m) (fun _ _ hmove hm => hm.trans hmove.bracketed) (.refl m)

/-- Between states without guards the signals are a bracket word. -/
theorem Bracketed.balanced (h : Bracketed m m') (hguards : guards m.stack = 0)
    (hguards' : guards m'.stack = 0) : ∃ w, Balanced w ∧ m'.signals = m.signals ++ w := by
  obtain ⟨-, w, hw, hlevel⟩ := h
  refine ⟨w, ?_, hw⟩
  split at hlevel
  · rw [hguards, hguards'] at hlevel
    exact balanced_of_level w hlevel
  · rw [hlevel]
    exact .nil

end Machine

end WrapperGen.Calls
