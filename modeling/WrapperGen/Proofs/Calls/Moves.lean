import Mathlib.Logic.Relation
import WrapperGen.Proofs.Calls.Runs
/-!
# What a step can do

* `Move`: what the parts of a step do to a machine, with all they are sure of.
* `step_moves`, `run_moves`: steps and runs are made of moves, so they keep what every move keeps
  (`Moves.keeps`).
-/

namespace WrapperGen.Calls

variable {S α : Type}

/-- Frames that are neither guards nor ends of boundaries. -/
def Frame.isPlain : Frame S α → Bool
  | .busy | .boundary .. => false
  | .code _ | .block .. | .won | .found => true

/-- Events that are neither signals nor the start of a handler. -/
def Event.isPlain : Event α → Bool
  | .busy _ | .received .. => false
  | .note _ | .completed _ | .won _ | .refused _ | .handle _ => true

namespace Machine

/-- What is done with a continuation that was just shared. -/
inductive Settling (k : Nat) (m : Machine S α) : Machine S α → Prop
  | complete (o : Outcome α) : Settling k m (m.complete k o)
  | spawn (o : Outcome α) : Settling k m (m.spawn k o)
  | nothing : Settling k m m

/-- What a part of a step does. -/
inductive Move (m : Machine S α) : Machine S α → Prop
  | emit (e : Event α) (plain : e.isPlain) : Move m (m.emit e)
  | push (f : Frame S α) (plain : f.isPlain) : Move m (m.push f)
  | pop {f : Frame S α} {fs : List (Frame S α)} (top : m.stack = f :: fs) (plain : f.isPlain) :
      Move m { m with stack := fs }
  | enter : Move m ((m.signal true).push .busy)
  | leave {fs : List (Frame S α)} (top : m.stack = .busy :: fs) :
      Move m (({ m with stack := fs } : Machine S α).signal false)
  | setClient {r : Registry S} {c : Context S} (set : m.context.setClient r = .ok c) :
      Move m { m with context := c }
  | panic (p : Panic) : Move m { m with unwinding := some p }
  /-- Code completes a continuation that it holds. -/
  | complete {k : Nat} {h : Handlers S α} (held : m.held? k = some (.waiting h)) (o : Outcome α) :
      Move m (m.complete k o)
  /-- A dispatch came to its end. -/
  | returned {k : Nat} {fs : List (Frame S α)} (top : m.stack = .boundary k none :: fs) :
      Move m { m with stack := fs }
  /-- A dispatch panicked. -/
  | caught {k : Nat} {panic : Option Panic} {fs : List (Frame S α)}
      (top : m.stack = .boundary k panic :: fs) (e : CallError) :
      Move m (({ m with stack := fs, unwinding := none } : Machine S α).complete k (.error e))
  /-- A wrapper has its result, or a future that gives it. -/
  | settle {m' : Machine S α} (h : Handlers S α)
      (settling : Settling m.shared.length (m.share false h) m') : Move m m'
  /-- A wrapper dispatches a call. -/
  | dispatch {m' : Machine S α} (h : Handlers S α) (panic : Option Panic)
      (settling : Settling m.shared.length
        ((m.share false h).push (.boundary m.shared.length panic)) m') : Move m m'

def Moves (m m' : Machine S α) : Prop := Relation.ReflTransGen Move m m'

variable {m m' m'' : Machine S α}

theorem Moves.refl (m : Machine S α) : Moves m m := Relation.ReflTransGen.refl

theorem Moves.trans (h : Moves m m') (h' : Moves m' m'') : Moves m m'' :=
  Relation.ReflTransGen.trans h h'

theorem Move.moves (h : Move m m') : Moves m m' := Relation.ReflTransGen.single h

theorem Move.then (h : Move m m') (h' : Move m' m'') : Moves m m'' := h.moves.trans h'.moves

/-! ## Steps -/

/-- A wrapper whose block returned shares its continuation. It settles it, inside a boundary if it
got a call. -/
theorem afterBlock_settling (h : Handlers S α) (i : Invocation S α) :
    Settling m.shared.length (m.share false h) (m.afterBlock h i) ∨
      ∃ panic, Settling m.shared.length
        ((m.share false h).push (.boundary m.shared.length panic)) (m.afterBlock h i) := by
  unfold afterBlock
  dsimp only
  split
  · exact .inl (.complete _)
  · rename_i s _
    cases i.method with
    | response run | bare run => exact .inl (.complete _)
    | deferred run =>
      simp only [dispatch]
      split
      · exact .inl (.spawn _)
      · exact .inl (.complete _)
    | call run =>
      simp only [dispatch]
      cases run s with
      | error p => exact .inl (.complete _)
      | ok c =>
        refine .inr ⟨c.panic, ?_⟩
        simp only
        cases c.delivery with
        | now a => exact .complete _
        | later a => exact .spawn _
        | never => exact .nothing

theorem afterBlock_move (h : Handlers S α) (i : Invocation S α) : Move m (m.afterBlock h i) := by
  rcases afterBlock_settling h i with settling | ⟨panic, settling⟩
  · exact .settle h settling
  · exact .dispatch h panic settling

theorem perform_moves (i : Instr S α) : Moves m (m.perform i) := by
  cases i with
  | note text => exact (Move.emit _ rfl).moves
  | onSuccess _ _ | onFail _ _ => exact .refl m
  | panic p => exact (Move.panic p).moves
  | invoke i block | guarded body => exact Move.enter.then (.push _ rfl)
  | complete k o =>
    simp only [perform, tryComplete]
    split
    · rename_i h hheld
      have hpushed : (m.push .won).held? k = some (.waiting h) := hheld
      exact (Move.push .won rfl).then (.complete hpushed o)
    · exact (Move.emit _ rfl).moves
    · exact .refl m
  | probe k =>
    simp only [perform]
    split
    · exact (Move.emit _ rfl).moves
    · exact .refl m
  | setClient r =>
    simp only [perform]
    split
    · rename_i c hclient
      exact (Move.setClient hclient).then (.emit _ rfl)
    · exact (Move.emit _ rfl).moves
  | service name block =>
    simp only [perform]
    split
    · exact (Move.push .found rfl).then (.push _ rfl)
    · exact (Move.emit _ rfl).moves
  | serviceHandle name =>
    simp only [perform]
    split
    · exact (Move.emit _ rfl).moves
    · exact (Move.emit _ rfl).moves

theorem resume_moves {f : Frame S α} {fs : List (Frame S α)} (h : m.stack = f :: fs)
    (hm : m.unwinding = none) : Moves m (({ m with stack := fs } : Machine S α).resume f) := by
  cases f with
  | code rest =>
    refine (Move.pop h rfl).moves.trans ?_
    cases rest with
    | nil => exact .refl _
    | cons i is => exact (Move.push (.code is) rfl).moves.trans (perform_moves i)
  | block rest handlers i =>
    refine (Move.pop h rfl).moves.trans ?_
    cases rest with
    | nil => exact (afterBlock_move handlers i).moves
    | cons step is =>
      simp only [resume]
      split
      · exact (Move.push _ rfl).moves
      · exact (Move.push (.block is handlers i) rfl).moves.trans (perform_moves step)
  | boundary k panic =>
    cases panic with
    | none => exact (Move.returned h).moves
    | some p =>
      have hcaught := (Move.caught h (.ofPanic p)).moves
      rwa [← hm] at hcaught
  | won | found => exact (Move.pop h rfl).then (.emit _ rfl)
  | busy => exact (Move.leave h).moves

theorem unwind_moves {f : Frame S α} {fs : List (Frame S α)} (h : m.stack = f :: fs) (p : Panic) :
    Moves m (({ m with stack := fs } : Machine S α).unwind p f) := by
  cases f with
  | code _ | block _ _ _ | won | found => exact (Move.pop h rfl).moves
  | boundary k panic => exact (Move.caught h (.ofPanic p)).moves
  | busy => exact (Move.leave h).moves

/-- A step is made of moves. -/
theorem step_moves (m : Machine S α) : Moves m m.step := by
  unfold step
  split
  · exact .refl m
  · rename_i f fs hstack
    dsimp only
    split
    · rename_i hm
      exact resume_moves hstack hm
    · exact unwind_moves hstack _

/-- So is a run. -/
theorem run_moves (m : Machine S α) : Moves m m.run :=
  run_induction (P := Moves m) (fun m' h => h.trans (step_moves m')) (.refl m)

/-- What every move keeps is kept by all moves. -/
theorem Moves.keeps {P : Machine S α → Prop} (hP : ∀ m m' : Machine S α, Move m m' → P m → P m')
    (h : Moves m m') (hm : P m) : P m' := by
  induction h with
  | refl => exact hm
  | tail _ hmove ih => exact hP _ _ hmove ih

end Machine

end WrapperGen.Calls
