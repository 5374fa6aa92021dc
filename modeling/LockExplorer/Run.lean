import LockExplorer.OwnershipCycle
import LockExplorer.Trace

/-!
# Running a thread

A thread runs to completion against a shared ledger. Each action is narrated in the log, a lock that
cannot be taken is narrated and skipped, and after every action the ledger is checked for ownership
cycles. Nothing waits and nothing is undone. `run` is the loop of `ThreadRunner::run`, of which
`replay` is one pass, and `check` is `DeadlockDetector::check` with the line that it appends.

The log is an `ExecutionLog` with its `append`, `render`, `contains`, `len` and `is_empty`, and
`text` is how it is displayed. Lines are only ever added at the end.
-/

namespace LockExplorer

/-! ## The log -/

/-- The lines narrated so far, oldest first. -/
structure Log where
  lines : Array String
deriving DecidableEq

namespace Log

def empty : Log :=
  ⟨#[]⟩

def append (log : Log) (line : String) : Log :=
  ⟨log.lines.push line⟩

def toList (log : Log) : List String :=
  log.lines.toList

def contains (log : Log) (line : String) : Bool :=
  log.lines.contains line

def size (log : Log) : Nat :=
  log.lines.size

def isEmpty (log : Log) : Bool :=
  log.lines.isEmpty

/-- The whole text: every line is followed by a line feed. -/
def text (log : Log) : String :=
  log.lines.foldl (fun text line => text ++ line ++ "\n") ""

@[simp] theorem to_list_empty : empty.toList = [] := rfl

@[simp] theorem to_list_append (log : Log) (line : String) :
    (log.append line).toList = log.toList ++ [line] := by
  simp [toList, append]

@[simp] theorem length_to_list (log : Log) : log.toList.length = log.size := by
  simp [toList, size]

end Log

/-! ## What runs share and what they come to -/

structure Simulation where
  ledger : Ledger
  log : Log
  trace : Array TraceEvent

structure Outcome where
  /-- How many actions were replayed. -/
  executed : Nat := 0
  /-- How many locks could not be taken. -/
  failed : Nat := 0
  /-- The first thread reported by a cycle check during the run. -/
  deadlock : Option ThreadId := none
deriving DecidableEq

/-! ## Log lines -/

namespace Line

def acquired (thread : ThreadId) (resource : Resource) : String :=
  thread.name ++ " acquired lock on " ++ resource.name

def failed (thread : ThreadId) (resource : Resource) : String :=
  thread.name ++ " failed to acquire lock on " ++ resource.name

def released (thread : ThreadId) (resource : Resource) : String :=
  thread.name ++ " released lock on " ++ resource.name

def executed (thread : ThreadId) (label : String) : String :=
  thread.name ++ " executed action: " ++ label

def deadlock (thread : ThreadId) : String :=
  "Deadlock detected involving thread: " ++ thread.name

end Line

namespace Simulation

def empty : Simulation :=
  ⟨Ledger.empty, Log.empty, #[]⟩

def narrate (simulation : Simulation) (line : String) : Simulation :=
  { simulation with log := simulation.log.append line }

def record (simulation : Simulation) (event : TraceEvent) : Simulation :=
  { simulation with trace := simulation.trace.push event }

/-- Looks for an ownership cycle. A find is traced and narrated; otherwise nothing changes. -/
def check (simulation : Simulation) : Option ThreadId × Simulation :=
  match simulation.ledger.cycle? with
  | some thread =>
      let traced := simulation.record (.cycleDetected thread simulation.ledger.size)
      (some thread, traced.narrate (Line.deadlock thread))
  | none => (none, simulation)

/-- Performs an action for a thread, and tells whether it was a lock that could not be taken. -/
def perform (simulation : Simulation) (thread : ThreadId) : Action → Bool × Simulation
  | .lock resource =>
      match simulation.ledger.acquire? resource thread with
      | some ledger => (false, { simulation with ledger }.narrate (Line.acquired thread resource))
      | none =>
          let owner := simulation.ledger.ownerOf? resource
          let traced := simulation.record (.acquisitionFailed thread resource owner)
          (true, traced.narrate (Line.failed thread resource))
  | .unlock resource =>
      let (_, ledger) := simulation.ledger.release resource
      (false, { simulation with ledger }.narrate (Line.released thread resource))
  | .generic label => (false, simulation.narrate (Line.executed thread label))

/-- Replays one action: it is traced, performed, and followed by a cycle check. -/
def replay (simulation : Simulation) (thread : ThreadId) (action : Action) (outcome : Outcome) :
    Outcome × Simulation :=
  let traced := simulation.record (.replaying thread action)
  let (failed, performed) := traced.perform thread action
  let (found, checked) := performed.check
  ({ executed := outcome.executed + 1
     failed := outcome.failed + if failed then 1 else 0
     deadlock := outcome.deadlock.or found }, checked)

def replayRest (simulation : Simulation) (thread : Thread) (outcome : Outcome) :
    Thread × Outcome × Simulation :=
  match _next : thread.next? with
  | none => (thread, outcome, simulation)
  | some (action, later) =>
      let (outcome, simulation) := simulation.replay thread.id action outcome
      replayRest simulation later outcome
termination_by thread.remaining
decreasing_by exact Thread.remaining_lt_of_next _next

/-- Runs a thread from its first action to its last, wherever its cursor stood. -/
def run (simulation : Simulation) (thread : Thread) : Thread × Outcome × Simulation :=
  simulation.replayRest thread.reset {}

end Simulation

end LockExplorer
