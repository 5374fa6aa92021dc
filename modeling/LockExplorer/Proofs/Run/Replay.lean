import LockExplorer.Proofs.Ledger.Ownership
import LockExplorer.Run

/-!
# A run as a replay of its actions

A run is driven by the thread's cursor. Since it starts at the first action, it is the same as
replaying the list of actions one by one, and the ledger it leaves is that of the thread's history.
-/

namespace LockExplorer

def Thread.history (thread : Thread) : List (ThreadId × Action) :=
  thread.actions.map fun action => (thread.id, action)

theorem Thread.next_eq_some {thread later : Thread} {action : Action}
    (next : thread.next? = some (action, later)) :
    thread.actions.drop thread.cursor = action :: thread.actions.drop (thread.cursor + 1) ∧
      later = { thread with cursor := thread.cursor + 1 } := by
  unfold Thread.next? at next
  split at next
  · next found =>
      obtain ⟨bounded, rfl⟩ := List.getElem?_eq_some_iff.mp found
      cases next
      exact ⟨List.drop_eq_getElem_cons bounded, rfl⟩
  · cases next

theorem Thread.next_eq_none {thread : Thread} (next : thread.next? = none) :
    thread.actions.length ≤ thread.cursor := by
  unfold Thread.next? at next
  split at next
  · cases next
  · next missing => exact List.getElem?_eq_none_iff.mp missing

namespace Simulation

def replayAll (simulation : Simulation) (thread : ThreadId) :
    List Action → Outcome → Outcome × Simulation
  | [], outcome => (outcome, simulation)
  | action :: later, outcome =>
      let replayed := simulation.replay thread action outcome
      replayed.2.replayAll thread later replayed.1

theorem replay_rest_eq (simulation : Simulation) (thread : Thread) (outcome : Outcome)
    (bounded : thread.cursor ≤ thread.actions.length) :
    simulation.replayRest thread outcome =
      ({ thread with cursor := thread.actions.length },
        simulation.replayAll thread.id (thread.actions.drop thread.cursor) outcome) := by
  fun_induction replayRest simulation thread outcome with
  | case1 simulation thread outcome stopped =>
      have finished : thread.cursor = thread.actions.length :=
        Nat.le_antisymm bounded (Thread.next_eq_none stopped)
      rw [finished, List.drop_length, replayAll, ← finished]
  | case2 simulation thread outcome action later next replayedOutcome replayed replay induction =>
      obtain ⟨rest, rfl⟩ := Thread.next_eq_some next
      have inside : thread.cursor < thread.actions.length := by
        apply Nat.lt_of_not_le
        intro beyond
        rw [List.drop_of_length_le beyond] at rest
        cases rest
      rw [induction inside, rest, replayAll, replay]

theorem run_eq (simulation : Simulation) (thread : Thread) :
    simulation.run thread =
      ({ thread with cursor := thread.actions.length },
        simulation.replayAll thread.id thread.actions {}) := by
  rw [run, replay_rest_eq simulation thread.reset {} (Nat.zero_le _)]
  rfl

/-! ## The ledger -/

@[simp] theorem ledger_record (simulation : Simulation) (event : TraceEvent) :
    (simulation.record event).ledger = simulation.ledger := rfl

@[simp] theorem ledger_narrate (simulation : Simulation) (line : String) :
    (simulation.narrate line).ledger = simulation.ledger := rfl

@[simp] theorem ledger_check (simulation : Simulation) :
    simulation.check.2.ledger = simulation.ledger := by
  unfold check
  split <;> rfl

@[simp] theorem ledger_perform (simulation : Simulation) (thread : ThreadId) (action : Action) :
    (simulation.perform thread action).2.ledger = simulation.ledger.step thread action := by
  cases action with
  | lock resource =>
      simp only [perform, Ledger.step]
      cases simulation.ledger.acquire? resource thread <;> rfl
  | unlock resource => rfl
  | generic label => rfl

@[simp] theorem ledger_replay (simulation : Simulation) (thread : ThreadId) (action : Action)
    (outcome : Outcome) :
    (simulation.replay thread action outcome).2.ledger = simulation.ledger.step thread action := by
  simp only [replay, ledger_check, ledger_perform, ledger_record]

theorem ledger_replay_all (simulation : Simulation) (thread : ThreadId) (actions : List Action)
    (outcome : Outcome) : (simulation.replayAll thread actions outcome).2.ledger =
      simulation.ledger.replayed (actions.map fun action => (thread, action)) := by
  induction actions generalizing simulation outcome with
  | nil => rfl
  | cons action later induction =>
      rw [replayAll, induction, ledger_replay]
      rfl

theorem ledger_run (simulation : Simulation) (thread : Thread) :
    (simulation.run thread).2.2.ledger = simulation.ledger.replayed thread.history := by
  rw [run_eq, ledger_replay_all]
  rfl

end Simulation

end LockExplorer
