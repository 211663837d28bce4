/-!
# Failed calls

Why a call gave no value.
-/

namespace WrapperGen.Calls

/-- What code panicked with: a text, or something else. -/
inductive Panic
  | text (s : String)
  | other
deriving DecidableEq, Repr

inductive CallError
  | transport (cause : String)
  | http (code : Nat) (message : String)
  | emptyBody
  | panicked (message : String)
  | serviceUnavailable (reason : String)
  | noRuntime
  | cancelled
deriving DecidableEq, Repr

namespace CallError

def ofPanic : Panic → CallError
  | .text s => panicked s
  | .other => panicked "unknown panic payload"

def text : CallError → String
  | transport cause => cause
  | http code message => "HTTP Error: " ++ toString code ++ " - " ++ message
  | emptyBody => "response body was empty"
  | panicked message => "call panicked: " ++ message
  | serviceUnavailable reason => "service unavailable: " ++ reason
  | noRuntime => "no tokio runtime available for deferred call"
  | cancelled => "deferred call was cancelled"

def status? : CallError → Option Nat
  | http code _ => some code
  | _ => none

end CallError

/-- A value, or why there is none. -/
abbrev Outcome (α : Type) := Except CallError α

/-- Runs a dispatch. Its panic is an error like others. -/
def attempt {α : Type} : Except Panic (Outcome α) → Outcome α
  | .ok o => o
  | .error p => .error (.ofPanic p)

end WrapperGen.Calls
