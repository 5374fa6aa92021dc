import LockExplorer.Thread

/-!
# Scenarios

A scenario names the threads to explore, in order, with their actions as raw tokens, and may limit
the number of orderings. It is usable when every thread has a visible name and no two threads have
the same name. `fault?` is `Scenario::validate`, `withLimit` is `override_max_permutations`, and
`threads` and `canonical` go by their own names.
-/

namespace LockExplorer

structure ThreadPlan where
  id : String
  /-- The tokens of its actions. -/
  actions : List String
deriving DecidableEq

structure Scenario where
  /-- The largest number of orderings to run. -/
  limit : Option UInt64 := none
  plans : List ThreadPlan := []
deriving DecidableEq

namespace Scenario

inductive Fault where
  /-- The thread at this index has no visible name. -/
  | blankId (index : Nat)
  /-- A thread has the name of an earlier one. -/
  | duplicateId (id : String)
deriving DecidableEq

def Fault.message : Fault → String
  | .blankId index => "thread #" ++ toString index ++ " has an empty id"
  | .duplicateId id => "duplicate thread id '" ++ id ++ "'"

/-- The first fault among the plans from an index on, given the names before it. -/
def faultFrom (seen : List String) (index : Nat) : List ThreadPlan → Option Fault
  | [] => none
  | plan :: later =>
      if Text.isAllBlank plan.id.toList then some (.blankId index)
      else if plan.id ∈ seen then some (.duplicateId plan.id)
      else faultFrom (plan.id :: seen) (index + 1) later

/-- The first fault of a scenario. At one thread, a missing name comes before a repeated one. -/
def fault? (scenario : Scenario) : Option Fault :=
  faultFrom [] 0 scenario.plans

/-- The scenario under another limit; without one it keeps its own. -/
def withLimit (scenario : Scenario) (limit : Option UInt64) : Scenario :=
  { scenario with limit := limit.or scenario.limit }

def threads (scenario : Scenario) : List Thread :=
  scenario.plans.map fun plan => Thread.ofTokens plan.id plan.actions

/-- Two threads that contend for one resource and release it before they finish. -/
def canonical : Scenario where
  plans :=
    [⟨"Thread1", ["LOCK R1", "1", "UNLOCK R1"]⟩, ⟨"Thread2", ["LOCK R1", "2", "UNLOCK R1"]⟩]

end Scenario

end LockExplorer
