import WrapperGen.Calls.Call
import WrapperGen.Calls.Registry
/-!
# Code that calls services

What blocks and handlers do, as far as wrappers are concerned, and what can be seen of it.
-/

namespace WrapperGen.Calls

inductive Event (α : Type)
  | busy (on : Bool)
  | note (text : String)
  /-- A handler got an outcome; a continuation that is not shared has no number. -/
  | received (continuation : Option Nat) (tag : Option String) (o : Outcome α)
  /-- Whether a continuation was completed already. -/
  | completed (b : Bool)
  /-- Whether completing a continuation was the first time. -/
  | won (b : Bool)
  /-- How a context answered. -/
  | refused (e : Option Refusal)
  | handle (e : Option CallError)

/-- A method of a service by the shape of its result. What it gives can be a panic. -/
inductive Method (S α : Type)
  | call (run : S → Except Panic (Call α))
  | response (run : S → Except Panic (Response α))
  | bare (run : S → Except Panic α)
  /-- A future, with what it comes to. -/
  | deferred (run : S → Except Panic α)

structure Invocation (S α : Type) where
  service : String
  method : Method S α

inductive Instr (S α : Type)
  | note (text : String)
  | onSuccess (tag : Option String) (handler : List (Instr S α))
  | onFail (tag : Option String) (handler : List (Instr S α))
  /-- Calls a wrapper with a block. -/
  | invoke (i : Invocation S α) (block : List (Instr S α))
  | panic (p : Panic)
  /-- Runs code while the context is busy. -/
  | guarded (body : List (Instr S α))
  | complete (continuation : Nat) (o : Outcome α)
  | probe (continuation : Nat)
  | setClient (r : Registry S)
  | service (name : String) (block : List (Instr S α))
  | serviceHandle (name : String)

abbrev Code (S α : Type) := List (Instr S α)

structure Handler (S α : Type) where
  tag : Option String
  code : Code S α

/-- The handlers of a continuation. -/
structure Handlers (S α : Type) where
  success : Option (Handler S α)
  failure : Option (Handler S α)

namespace Handlers

variable {S α : Type}

def none : Handlers S α := ⟨.none, .none⟩

def onSuccess (h : Handlers S α) (new : Handler S α) : Handlers S α := { h with success := some new }

def onFail (h : Handlers S α) (new : Handler S α) : Handlers S α := { h with failure := some new }

/-- The handlers after an instruction that registers one. -/
def register? (h : Handlers S α) : Instr S α → Option (Handlers S α)
  | .onSuccess tag code => some (h.onSuccess ⟨tag, code⟩)
  | .onFail tag code => some (h.onFail ⟨tag, code⟩)
  | _ => .none

/-- The handler for an outcome. -/
def for? (h : Handlers S α) : Outcome α → Option (Handler S α)
  | .ok _ => h.success
  | .error _ => h.failure

def text (h : Handlers S α) : String :=
  "Continuation \x7b on_success: " ++ toString h.success.isSome ++ ", on_fail: " ++
    toString h.failure.isSome ++ " \x7d"

end Handlers

/-! ## Size -/

mutual

/-- A bound on the steps that an instruction takes. -/
def Instr.weight {S α : Type} : Instr S α → Nat
  | .note _ | .panic _ | .probe _ | .setClient _ | .serviceHandle _ => 1
  | .onSuccess _ code => 1 + codeWeight code
  | .onFail _ code => 1 + codeWeight code
  | .invoke _ block => 7 + codeWeight block
  | .guarded body => 3 + codeWeight body
  | .complete _ _ => 3
  | .service _ block => 3 + codeWeight block

def codeWeight {S α : Type} : List (Instr S α) → Nat
  | [] => 0
  | i :: is => i.weight + codeWeight is

end

def Handler.weight {S α : Type} (h : Handler S α) : Nat := codeWeight h.code

def Handlers.weight {S α : Type} (h : Handlers S α) : Nat :=
  (h.success.map Handler.weight).getD 0 + (h.failure.map Handler.weight).getD 0

end WrapperGen.Calls
