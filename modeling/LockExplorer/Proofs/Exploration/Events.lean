import LockExplorer.Proofs.Exploration.ThreadRuns

/-!
# The trace of an exploration

Like its lines, the events of an action depend on the ledger alone. The trace of an exploration
consists of the opening event, of the events of each ordering, of the event of the limit if another
ordering was left over, and of the closing event.
-/

namespace LockExplorer

/-! ## The events of a run -/

namespace Ledger

def refusal (ledger : Ledger) (thread : ThreadId) : Action → List TraceEvent
  | .lock resource =>
      if ledger.isHeld resource then
        [.acquisitionFailed thread resource (ledger.ownerOf? resource)]
      else []
  | _ => []

def alarm (ledger : Ledger) : List TraceEvent :=
  (ledger.cycle?.map fun thread => .cycleDetected thread ledger.size).toList

def eventsFrom (ledger : Ledger) (thread : ThreadId) : List Action → List TraceEvent
  | [] => []
  | action :: later =>
      let next := ledger.step thread action
      .replaying thread action :: ledger.refusal thread action ++ next.alarm ++
        next.eventsFrom thread later

end Ledger

namespace Simulation

@[simp] theorem trace_narrate (simulation : Simulation) (line : String) :
    (simulation.narrate line).trace = simulation.trace := rfl

end Simulation

/-! ## The events of all runs -/

def ThreadRun.events (run : ThreadRun) : List TraceEvent :=
  run.before.ledger.eventsFrom run.thread.id run.thread.actions

namespace Exploration

end Exploration

end LockExplorer
