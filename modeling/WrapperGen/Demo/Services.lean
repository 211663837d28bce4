import WrapperGen.Calls.Machine
/-!
# Two services

An example with one operation for each shape of result, and a client of a repository host. Their
operations are what the wrappers of these services dispatch.
-/

namespace WrapperGen.Demo

open Calls

/-! ## The example -/

structure ExampleService where
  fetch : String → Except Panic (Call Nat)
  fetchNow : String → Except Panic (Response Nat)
  fetchBare : Except Panic Nat
  fetchLater : Nat → Except Panic Nat

namespace ExampleService

def name : String := "dyn svcwrap_demo::api::ExampleService"

abbrev Operation := Invocation ExampleService Nat

def fetchOf (id : String) : Operation := ⟨name, .call fun s => s.fetch id⟩

def fetchNowOf (id : String) : Operation := ⟨name, .response fun s => s.fetchNow id⟩

def fetchBareOf : Operation := ⟨name, .bare fun s => s.fetchBare⟩

def fetchLaterOf (id : Nat) : Operation := ⟨name, .deferred fun s => s.fetchLater id⟩

end ExampleService

/-! ## Repositories -/

structure Repo where
  name : String
  fullName : Option String
  stars : Nat
deriving DecidableEq, Repr

namespace Repo

def text (r : Repo) : String := r.fullName.getD r.name ++ " (" ++ toString r.stars ++ " stars)"

end Repo

structure GithubService where
  getRepo : String → String → Except Panic (Call Repo)

namespace GithubService

def name : String := "dyn svcwrap_demo::api::GithubService"

def getRepoOf (owner repo : String) : Invocation GithubService Repo :=
  ⟨name, .call fun s => s.getRepo owner repo⟩

/-- The code that asks for a repository and shows what it gets. -/
def describe (owner repo : String) : Code GithubService Repo :=
  [.invoke (getRepoOf owner repo) [.onSuccess none [], .onFail none []]]

/-- A context with the service. -/
def context (s : GithubService) (reportsBusy : Bool) : Context GithubService :=
  ⟨some (Registry.empty.bind name s), reportsBusy, false⟩

end GithubService

/-- The text that a view shows for an outcome. -/
def shown : Outcome Repo → String
  | .ok r => r.text
  | .error e => e.text

end WrapperGen.Demo
