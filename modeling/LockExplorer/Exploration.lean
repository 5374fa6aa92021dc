import LockExplorer.Orderings
import LockExplorer.Run

/-!
# Exploring all orderings

An exploration runs the threads in every order, each thread to completion, against one ledger and
one log. Nothing is cleared between orderings, so a resource that one ordering leaves held is still
held when the next ordering begins. A limit on the number of orderings only cuts the exploration
short. `explore` is `Explorer::run`, with `runWithin` for its loop over the permutations and
`runThread` for the loop over the threads of one; an `Exploration` is an `ExplorationResult`
together with the trace.
-/

namespace LockExplorer

/-- A run of a thread during which an ownership cycle was found. -/
structure Report where
  /-- The number of the ordering, counted from zero. -/
  ordering : Nat
  /-- The thread that was running. -/
  running : ThreadId
  /-- The thread that the first find named. -/
  involved : ThreadId
deriving DecidableEq

structure Exploration where
  /-- How many orderings were run. -/
  explored : Nat
  /-- The orderings that were run, in order. -/
  orderings : Array (List ThreadId)
  deadlocks : Array Report
  /-- The ledger, the log and the trace. -/
  simulation : Simulation

namespace Line

def exploring (order : List ThreadId) : String :=
  "Exploring permutation: " ++ TraceEvent.orderText order

def running (thread : ThreadId) : String :=
  "Running thread: " ++ thread.name

end Line

namespace Exploration

def empty : Exploration :=
  ⟨0, #[], #[], Simulation.empty⟩

def deadlockFree (exploration : Exploration) : Bool :=
  exploration.deadlocks.isEmpty

def runThread (exploration : Exploration) (thread : Thread) : Exploration :=
  let announced := exploration.simulation.narrate (Line.running thread.id)
  let (_, outcome, simulation) := announced.run thread
  match outcome.deadlock with
  | some involved =>
      let report : Report := ⟨exploration.explored, thread.id, involved⟩
      { exploration with simulation, deadlocks := exploration.deadlocks.push report }
  | none => { exploration with simulation }

def runOrdering (exploration : Exploration) (ordering : List Thread) : Exploration :=
  let order := ordering.map Thread.id
  let held := exploration.simulation.ledger.size
  let event := TraceEvent.orderingStarted exploration.explored order held
  let announced := (exploration.simulation.record event).narrate (Line.exploring order)
  let ran := ordering.foldl runThread { exploration with simulation := announced }
  { ran with explored := ran.explored + 1, orderings := ran.orderings.push order }

/-- Runs orderings until there are no more or the budget is spent. Whether the budget cuts the
exploration short is known only once another ordering has turned up. -/
def runWithin (exploration : Exploration) (orderings : Orderings Thread) (budget : Nat) :
    Exploration :=
  match orderings.next, budget with
  | (none, _), _ => exploration
  | (some _, _), 0 =>
      let event := TraceEvent.limitReached exploration.explored
      { exploration with simulation := exploration.simulation.record event }
  | (some ordering, later), budget + 1 =>
      (exploration.runOrdering ordering).runWithin later budget

/-- The number of orderings that a limit allows; without one, the largest number a limit can be. -/
def budget : Option UInt64 → Nat
  | some limit => limit.toNat
  | none => UInt64.size - 1

end Exploration

/-- Explores the orderings of the threads, at most as many as the limit says. -/
def explore (threads : List Thread) (limit : Option UInt64) : Exploration :=
  let orderings := Orderings.ofList threads
  let started := Simulation.empty.record (.started threads.length orderings.total? limit)
  let ran := { Exploration.empty with simulation := started }.runWithin orderings
    (Exploration.budget limit)
  let event := TraceEvent.finished ran.explored ran.deadlocks.size ran.simulation.ledger.size
    ran.simulation.log.size
  { ran with simulation := ran.simulation.record event }

end LockExplorer
