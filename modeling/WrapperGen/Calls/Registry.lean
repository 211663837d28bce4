import WrapperGen.Calls.CallError
import WrapperGen.Text.Quote
/-!
# Bound services

A registry holds one implementation for each service that was bound. A context gets its registry
once; from then on it finds services in it.
-/

namespace WrapperGen.Calls

/-- The services by name. The full name of a service's type stands for the type. -/
structure Registry (S : Type) where
  services : List (String × S)
  /-- The names, in the order in which they were bound first. -/
  names : List String

namespace Registry

variable {S : Type}

def empty : Registry S := ⟨[], []⟩

def get? (r : Registry S) (name : String) : Option S :=
  (r.services.find? (·.1 = name)).map (·.2)

/-- Puts an implementation into the place of the one that was bound before. -/
def bindIn (name : String) (s : S) : List (String × S) → List (String × S)
  | [] => [(name, s)]
  | (n, old) :: r => if n = name then (n, s) :: r else (n, old) :: bindIn name s r

/-- Binds a service. Its name is recorded unless something was bound to it before. -/
def bind (r : Registry S) (name : String) (s : S) : Registry S where
  services := bindIn name s r.services
  names := if (r.get? name).isNone then r.names ++ [name] else r.names

def size (r : Registry S) : Nat := r.services.length

def text (r : Registry S) : String :=
  "ServiceClient \x7b services: [" ++ ", ".intercalate (r.names.map Text.quote) ++ "] \x7d"

end Registry

/-- Why a context refuses a registry, or has no service. -/
inductive Refusal
  | alreadySet
  | missing
  | notBound (service : String)
deriving DecidableEq, Repr

namespace Refusal

def text : Refusal → String
  | alreadySet => "service client has already been set"
  | missing => "no service client has been set"
  | notBound service => "no implementation bound for " ++ service

end Refusal

/-- What wrappers run in. -/
structure Context (S : Type) where
  client : Option (Registry S)
  /-- Whether someone is told when it gets busy. -/
  reportsBusy : Bool
  /-- Whether it was given a runtime. -/
  hasRuntime : Bool

namespace Context

variable {S : Type}

def setClient (c : Context S) (r : Registry S) : Except Refusal (Context S) :=
  match c.client with
  | some _ => .error .alreadySet
  | none => .ok { c with client := some r }

def find (c : Context S) (name : String) : Except Refusal S :=
  match c.client with
  | none => .error .missing
  | some r =>
    match r.get? name with
    | some s => .ok s
    | none => .error (.notBound name)

/-- The service as a wrapper gets it. -/
def handle (c : Context S) (name : String) : Outcome S :=
  match c.client with
  | none => .error (.serviceUnavailable Refusal.missing.text)
  | some r =>
    match r.get? name with
    | some s => .ok s
    | none => .error (.serviceUnavailable (Refusal.notBound name).text)

def text (c : Context S) : String :=
  let client := match c.client with
    | none => "None"
    | some r => "Some(" ++ r.text ++ ")"
  "ServiceDsl \x7b client: " ++ client ++ ", runtime: " ++ toString c.hasRuntime ++ ", .. \x7d"

end Context

end WrapperGen.Calls
