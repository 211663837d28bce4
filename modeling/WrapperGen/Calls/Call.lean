import WrapperGen.Calls.CallError
/-!
# Responses and calls

A response has a status and maybe a body. A call will be answered by a response: while it is
dispatched, later, or never.
-/

namespace WrapperGen.Calls

/-! ## Responses -/

structure Response (α : Type) where
  code : Nat
  message : String
  body : Option α
deriving DecidableEq, Repr

namespace Response

variable {α : Type}

def success (body : α) : Response α := ⟨200, "OK", some body⟩

def error (code : Nat) (message : String) : Response α := ⟨code, message, none⟩

def isSuccessful (r : Response α) : Bool := 200 ≤ r.code && r.code < 300

/-- The body of a successful response. -/
def outcome (r : Response α) : Outcome α :=
  if r.isSuccessful then
    match r.body with
    | some v => .ok v
    | none => .error .emptyBody
  else .error (.http r.code r.message)

end Response

/-! ## Calls -/

/-- What a call is answered with. -/
abbrev Answer (α : Type) := Outcome (Response α)

/-- The outcome of an answer's body. -/
def settled {α : Type} (a : Answer α) : Outcome α := a.bind (·.outcome)

/-- When a call is answered. -/
inductive Delivery (α : Type)
  | now (a : Answer α)
  | later (a : Answer α)
  | never
deriving Repr

/-- A call, and the panic that its dispatch ends with, if any. -/
structure Call (α : Type) where
  delivery : Delivery α
  panic : Option Panic
deriving Repr

namespace Call

variable {α : Type}

def ready (a : Answer α) : Call α := ⟨.now a, none⟩

/-- A call that is answered by a task. If the task panics, the callback is gone with it. -/
def spawned : Except Panic (Answer α) → Call α
  | .ok a => ⟨.later a, none⟩
  | .error _ => ⟨.never, none⟩

def dropped : Call α := ⟨.never, none⟩

def panicking (p : Panic) : Call α := ⟨.never, some p⟩

/-- The answers that a callback gets in the end. -/
def answers (c : Call α) : List (Answer α) :=
  match c.delivery with
  | .now a | .later a => [a]
  | .never => []

/-- Hands the answers to a callback; the error is a panic of the dispatch. -/
def enqueue (c : Call α) : Except Panic (List (Answer α)) :=
  match c.panic with
  | some p => .error p
  | none => .ok c.answers

/-- Waits for the answer. A call without one was cancelled. -/
def execute (c : Call α) : Except Panic (Answer α) := do
  match ← c.enqueue with
  | [] => .ok (.error .cancelled)
  | a :: _ => .ok a

def text : String := "Call \x7b .. \x7d"

end Call

end WrapperGen.Calls
