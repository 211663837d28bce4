import WrapperGen.Diagnostics
import WrapperGen.Output.Unit
import WrapperGen.Service.Emit
import WrapperGen.Service.Report
import WrapperGen.Service.Tracker
/-!
# Rounds of generation

A round goes through all marked traits: those that were taken up before are skipped, those with
unknown types are deferred, the others are taken up and generated. A failure concerns one service
only. Rounds are repeated as long as they get anything done.
-/

namespace WrapperGen

open Files Source

/-- What a processor works on: units are written to it and messages are logged in it. -/
structure Host (σ : Type) where
  write : UnitText → σ → σ × Except Failure WriteOutcome
  log : Entry → σ → σ

structure Processor (σ : Type) where
  config : Config
  tracker : Tracker
  world : σ

structure GeneratedRecord where
  qualifiedName : String
  unitName : String
  path : FilePath
  written : Bool
deriving DecidableEq, Repr

structure DeferredService where
  declaration : Declared
  unresolved : List String

structure RoundOutput where
  generated : List GeneratedRecord
  deferred : List DeferredService
  skipped : List String
  aborted : List Failure
  writeFailures : List Failure

/-- What became of a marked trait. -/
inductive Fate
  /-- It was taken up before. -/
  | skipped
  /-- It waits for types that are not known yet. -/
  | deferred (unresolved : List String)
  | aborted (failure : Failure)
  /-- Its unit could not be written. -/
  | unwritten (failure : Failure)
  | generated (unit : GeneratedUnit) (outcome : WriteOutcome)
  | panicked (text : String)
deriving DecidableEq, Repr

structure Visit where
  declaration : Declared
  fate : Fate

namespace Fate

def isPanic : Fate → Bool
  | panicked _ => true
  | _ => false

end Fate

namespace RoundOutput

def empty : RoundOutput := ⟨[], [], [], [], []⟩

instance : Inhabited RoundOutput := ⟨empty⟩

def madeProgress (o : RoundOutput) : Bool :=
  !o.generated.isEmpty || !o.aborted.isEmpty || !o.writeFailures.isEmpty

def deferredNames (o : RoundOutput) : List String :=
  o.deferred.map (·.declaration.qualifiedName)

/-- Reports one more visit; an error is a panic. -/
def add (o : RoundOutput) (v : Visit) : Except String RoundOutput :=
  match v.fate with
  | .skipped => .ok { o with skipped := o.skipped ++ [v.declaration.qualifiedName] }
  | .deferred names => .ok { o with deferred := o.deferred ++ [⟨v.declaration, names⟩] }
  | .aborted f => .ok { o with aborted := o.aborted ++ [f] }
  | .unwritten f => .ok { o with writeFailures := o.writeFailures ++ [f] }
  | .generated u outcome =>
    .ok { o with
      generated := o.generated ++
        [⟨u.qualifiedName, u.unitName, outcome.path, outcome.isWritten⟩] }
  | .panicked text => .error text

/-- The report of a round, unless one of its visits ended with a panic. -/
def ofVisits (visits : List Visit) : Except String RoundOutput := visits.foldlM add empty

end RoundOutput

/-- What is written of a unit. -/
def GeneratedUnit.toText (u : GeneratedUnit) : UnitText :=
  ⟨u.packageName, u.unitName, u.source, u.origin⟩

/-- The unit of a marked trait. -/
def unitOf (c : Config) (r : Resolver) (d : Declared) : Except Stop GeneratedUnit := do
  let i ← (classifyInterface c r d).mapError .failure
  Emit.emit c i

namespace Processor

variable {σ : Type} (h : Host σ)

def start (c : Config) (world : σ) : Processor σ := ⟨c, .empty, world⟩

def log (p : Processor σ) (level : Level) (message : String) : Processor σ :=
  { p with world := h.log ⟨level, message⟩ p.world }

/-- What is logged of a unit that was written or is up to date. -/
def writtenMessage (u : GeneratedUnit) (outcome : WriteOutcome) : String :=
  (if outcome.isWritten then "generated" else "unchanged") ++ " " ++ u.unitName ++ " for " ++
    u.qualifiedName

/-- What is logged of a service that has to wait. -/
def deferredMessage (d : Declared) (names : List String) : String :=
  d.qualifiedName ++ " deferred to a later round: " ++ unresolvedText names

/-- Writes a unit and logs what came of it. -/
def writeUnit (u : GeneratedUnit) (p : Processor σ) : Processor σ × Fate :=
  let (world, result) := h.write u.toText p.world
  let p := { p with world := world }
  match result with
  | .error f => (p.log h .error f.message, .unwritten f)
  | .ok outcome => (p.log h .info (writtenMessage u outcome), .generated u outcome)

/-- Generates one service. -/
def generate (r : Resolver) (d : Declared) (p : Processor σ) : Processor σ × Fate :=
  match unitOf p.config r d with
  | .error (.panic text) => (p, .panicked text)
  | .error (.failure f) => (p.log h .error f.message, .aborted f)
  | .ok u => p.writeUnit h u

/-- Handles one marked trait. -/
def handle (r : Resolver) (d : Declared) (p : Processor σ) : Processor σ × Fate :=
  if p.tracker.isProcessed d.qualifiedName then (p, .skipped)
  else
    match unresolvedIn p.config r d with
    | [] =>
      let (tracker, fresh) := p.tracker.takeUp d.qualifiedName
      if fresh then generate h r d { p with tracker := tracker } else (p, .skipped)
    | names => (p.log h .warn (deferredMessage d names), .deferred names)

/-- Handles marked traits one after the other, up to a panic. -/
def handleAll (r : Resolver) : List Declared → Processor σ → Processor σ × List Visit
  | [], p => (p, [])
  | d :: ds, p =>
    let (p, fate) := handle h r d p
    if fate.isPanic then (p, [⟨d, fate⟩])
    else
      let (p, visits) := handleAll r ds p
      (p, ⟨d, fate⟩ :: visits)

/-- The visits of a round over a universe. -/
def visit (u : Universe) (p : Processor σ) : Processor σ × List Visit :=
  handleAll h (.ofUniverse u) (scan u p.config.marker) p

/-- One round over a universe. `retried` are the services that the round before deferred. -/
def round (u : Universe) (retried : List String) (p : Processor σ) :
    Processor σ × Except String RoundOutput :=
  let (p, visits) := p.visit h u
  match RoundOutput.ofVisits visits with
  | .error text => (p, .error text)
  | .ok out =>
    if retried.any p.tracker.isProcessed then
      (p.log h .debug "previously deferred interfaces were generated this round", .ok out)
    else (p, .ok out)

end Processor

/-! ## Repeated rounds -/

structure BuildReport where
  rounds : Nat
  generated : List GeneratedRecord
  deferred : List (String × List String)
  aborted : List String
  writeFailures : List String
  parseFailures : List String
deriving DecidableEq, Repr

namespace BuildReport

def isSuccess (r : BuildReport) : Bool := r.aborted.isEmpty && r.writeFailures.isEmpty

def writtenCount (r : BuildReport) : Nat := (r.generated.filter (·.written)).length

/-- Adds a round. Only what the last round deferred counts. -/
def absorb (r : BuildReport) (o : RoundOutput) : BuildReport where
  rounds := r.rounds + 1
  generated := r.generated ++ o.generated
  deferred := o.deferred.map fun d => (d.declaration.qualifiedName, d.unresolved)
  aborted := r.aborted ++ o.aborted.map (·.message)
  writeFailures := r.writeFailures ++ o.writeFailures.map (·.message)
  parseFailures := r.parseFailures

end BuildReport

/-- The number of rounds after which nothing more is tried. -/
def maxRounds : Nat := 16

namespace Processor

variable {σ : Type} (h : Host σ)

/-- Rounds until one makes no progress, at most `n`. -/
def rounds (u : Universe) : Nat → List String → Processor σ → BuildReport →
    Processor σ × Except String BuildReport
  | 0, _, p, report => (p, .ok report)
  | n + 1, retried, p, report =>
    match p.round h u retried with
    | (p, .error text) => (p, .error text)
    | (p, .ok out) =>
      if out.madeProgress then rounds u n out.deferredNames p (report.absorb out)
      else (p, .ok (report.absorb out))

def logAll (level : Level) (messages : List String) (p : Processor σ) : Processor σ :=
  messages.foldl (fun p m => p.log h level m) p

/-- Runs rounds until nothing more gets done, and says what was never generated. -/
def runToFixpoint (u : Universe) (p : Processor σ) : Processor σ × Except String BuildReport :=
  let failures := u.failures.map (·.message)
  let p := p.logAll h .warn failures
  match rounds h u maxRounds [] p ⟨0, [], [], [], [], failures⟩ with
  | (p, .error text) => (p, .error text)
  | (p, .ok report) =>
    let messages := report.deferred.map fun (name, unresolved) =>
      name ++ " was never generated: " ++ unresolvedText unresolved
    (p.logAll h .warn messages, .ok report)

end Processor

end WrapperGen
