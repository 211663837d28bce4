import WrapperGen.Calls.Code
/-!
# Running wrappers

A machine that runs code step by step. A wrapper signals that the context is busy, runs its block,
shares the continuation that the block registered handlers on, dispatches the call inside a
boundary that panics do not cross, and routes the outcome to the continuation. A panic unwinds the
stack; guards on it still signal the end of being busy. Tasks run when the stack is empty.
-/

namespace WrapperGen.Calls

/-- The handlers of a shared continuation are gone once it is completed. -/
inductive Progress (S α : Type)
  | waiting (h : Handlers S α)
  | completed (o : Outcome α)

structure Shared (S α : Type) where
  /-- Whether code can refer to it, not only the wrapper that shared it. -/
  held : Bool
  progress : Progress S α

inductive Frame (S α : Type)
  /-- Code to be run. -/
  | code (rest : Code S α)
  /-- A wrapper's block, with the handlers it has registered so far. -/
  | block (rest : Code S α) (h : Handlers S α) (i : Invocation S α)
  /-- The end of the boundary of a dispatch, which may end with a panic. -/
  | boundary (continuation : Nat) (panic : Option Panic)
  /-- Tells that completing a continuation was the first time. -/
  | won
  /-- Tells that a service was found. -/
  | found
  /-- A guard. -/
  | busy

/-- A continuation that is to be completed by a task. -/
structure Task (α : Type) where
  continuation : Nat
  outcome : Outcome α

structure Machine (S α : Type) where
  context : Context S
  /-- Whether code runs inside a runtime. -/
  ambient : Bool
  shared : List (Shared S α)
  stack : List (Frame S α)
  unwinding : Option Panic
  trace : List (Event α)
  tasks : List (Task α)

namespace Machine

variable {S α : Type}

def start (c : Context S) (ambient : Bool) : Machine S α := ⟨c, ambient, [], [], none, [], []⟩

/-! ## Parts of a step -/

def emit (m : Machine S α) (e : Event α) : Machine S α := { m with trace := m.trace ++ [e] }

def push (m : Machine S α) (f : Frame S α) : Machine S α := { m with stack := f :: m.stack }

def signal (m : Machine S α) (on : Bool) : Machine S α :=
  if m.context.reportsBusy then m.emit (.busy on) else m

def share (m : Machine S α) (held : Bool) (h : Handlers S α) : Machine S α :=
  { m with shared := m.shared ++ [⟨held, .waiting h⟩] }

/-- The continuation that code refers to. -/
def held? (m : Machine S α) (k : Nat) : Option (Progress S α) :=
  match m.shared[k]? with
  | some ⟨true, p⟩ => some p
  | _ => none

def isCompleted (m : Machine S α) (k : Nat) : Bool :=
  match m.shared[k]? with
  | some ⟨_, .completed _⟩ => true
  | _ => false

def sharedText (m : Machine S α) (k : Nat) : String :=
  "SharedContinuation \x7b completed: " ++ toString (m.isCompleted k) ++ " \x7d"

/-- Starts the handler for an outcome, if there is one. -/
def deliver (m : Machine S α) (k : Option Nat) (h : Handlers S α) (o : Outcome α) : Machine S α :=
  match h.for? o with
  | some handler => (m.emit (.received k handler.tag o)).push (.code handler.code)
  | none => m

/-- Completes a continuation that is not completed: its handlers are taken before the one for the
outcome runs. -/
def complete (m : Machine S α) (k : Nat) (o : Outcome α) : Machine S α :=
  match m.shared[k]? with
  | some ⟨held, .waiting h⟩ =>
    { m with shared := m.shared.set k ⟨held, .completed o⟩ }.deliver (some k) h o
  | _ => m

/-- Completes a continuation for code and tells it whether it was the first time. -/
def tryComplete (m : Machine S α) (k : Nat) (o : Outcome α) : Machine S α :=
  match m.held? k with
  | some (.waiting _) => (m.push .won).complete k o
  | some (.completed _) => m.emit (.won false)
  | none => m

def spawn (m : Machine S α) (k : Nat) (o : Outcome α) : Machine S α :=
  { m with tasks := m.tasks ++ [⟨k, o⟩] }

def hasRuntime (m : Machine S α) : Bool := m.context.hasRuntime || m.ambient

/-- The call of a service, for the continuation `k`. -/
def dispatch (m : Machine S α) (k : Nat) (s : S) : Method S α → Machine S α
  | .call run =>
    match run s with
    | .error p => m.complete k (.error (.ofPanic p))
    | .ok c =>
      let m := m.push (.boundary k c.panic)
      match c.delivery with
      | .now a => m.complete k (settled a)
      | .later a => m.spawn k (settled a)
      | .never => m
  | .response run => m.complete k (attempt ((run s).map (·.outcome)))
  | .bare run => m.complete k (attempt ((run s).map .ok))
  | .deferred run =>
    if m.hasRuntime then m.spawn k (attempt ((run s).map .ok))
    else m.complete k (.error .noRuntime)

/-- What a wrapper does after its block. -/
def afterBlock (m : Machine S α) (h : Handlers S α) (i : Invocation S α) : Machine S α :=
  let k := m.shared.length
  let m := m.share false h
  match m.context.handle i.service with
  | .error e => m.complete k (.error e)
  | .ok s => m.dispatch k s i.method

/-- Runs an instruction that registers no handler. -/
def perform (m : Machine S α) : Instr S α → Machine S α
  | .note text => m.emit (.note text)
  | .onSuccess .. | .onFail .. => m
  | .invoke i block => ((m.signal true).push .busy).push (.block block .none i)
  | .panic p => { m with unwinding := some p }
  | .guarded body => ((m.signal true).push .busy).push (.code body)
  | .complete k o => m.tryComplete k o
  | .probe k =>
    match m.held? k with
    | some _ => m.emit (.completed (m.isCompleted k))
    | none => m
  | .setClient r =>
    match m.context.setClient r with
    | .ok c => { m with context := c }.emit (.refused none)
    | .error e => m.emit (.refused (some e))
  | .service name block =>
    match m.context.find name with
    | .ok _ => (m.push .found).push (.code block)
    | .error e => m.emit (.refused (some e))
  | .serviceHandle name =>
    match m.context.handle name with
    | .ok _ => m.emit (.handle none)
    | .error e => m.emit (.handle (some e))

/-! ## Steps -/

/-- Handles a frame that was taken off the stack. -/
def resume (m : Machine S α) : Frame S α → Machine S α
  | .code [] => m
  | .code (i :: is) => (m.push (.code is)).perform i
  | .block [] h i => m.afterBlock h i
  | .block (step :: is) h i =>
    match h.register? step with
    | some h => m.push (.block is h i)
    | none => (m.push (.block is h i)).perform step
  | .boundary _ none => m
  | .boundary k (some p) => m.complete k (.error (.ofPanic p))
  | .won => m.emit (.won true)
  | .found => m.emit (.refused none)
  | .busy => m.signal false

/-- Handles a frame that a panic takes off the stack. -/
def unwind (m : Machine S α) (p : Panic) : Frame S α → Machine S α
  | .code _ | .block .. | .won | .found => m
  | .boundary k _ => { m with unwinding := none }.complete k (.error (.ofPanic p))
  | .busy => m.signal false

def step (m : Machine S α) : Machine S α :=
  match m.stack with
  | [] => m
  | f :: fs =>
    let m := { m with stack := fs }
    match m.unwinding with
    | none => m.resume f
    | some p => m.unwind p f

def steps : Nat → Machine S α → Machine S α
  | 0, m => m
  | n + 1, m => steps n m.step

/-! ## Runs -/

def frameWeight : Frame S α → Nat
  | .code rest => 1 + codeWeight rest
  | .block rest h _ => 5 + codeWeight rest + h.weight
  | .boundary .. => 2
  | .won | .found | .busy => 1

def sharedWeight (c : Shared S α) : Nat :=
  match c.progress with
  | .waiting h => h.weight
  | .completed _ => 0

def stackWeight : List (Frame S α) → Nat
  | [] => 0
  | f :: fs => frameWeight f + stackWeight fs

def handlersWeight : List (Shared S α) → Nat
  | [] => 0
  | c :: cs => sharedWeight c + handlersWeight cs

/-- A bound on the steps that are left, those of the tasks included. -/
def weight (m : Machine S α) : Nat :=
  stackWeight m.stack + handlersWeight m.shared + 2 * m.tasks.length

/-- Runs until the stack is empty. -/
def run (m : Machine S α) : Machine S α := steps m.weight m

/-- Runs code from the start. -/
def execute (m : Machine S α) (code : Code S α) : Machine S α :=
  run { m with stack := [.code code], unwinding := none }

/-- Completes a continuation that was never shared. -/
def completeOwned (m : Machine S α) (h : Handlers S α) (o : Outcome α) : Machine S α :=
  run ({ m with stack := [], unwinding := none }.deliver none h o)

/-- Runs a task inside the runtime. Its panic goes no further. -/
def runTask (m : Machine S α) (n : Nat) : Machine S α :=
  match m.tasks[n]? with
  | none => m
  | some t =>
    let began :=
      { m with tasks := m.tasks.eraseIdx n, stack := [], unwinding := none, ambient := true }
    { (began.complete t.continuation t.outcome).run with unwinding := none, ambient := m.ambient }

/-- Runs the first task so many times. -/
def runTasks : Nat → Machine S α → Machine S α
  | 0, m => m
  | n + 1, m => runTasks n (m.runTask 0)

/-- Runs tasks until there are none. -/
def drain (m : Machine S α) : Machine S α := runTasks m.weight m

end Machine

end WrapperGen.Calls
