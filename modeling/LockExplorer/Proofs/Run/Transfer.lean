import LockExplorer.Proofs.Run.Replay

/-!
# What a run does to each owner

A run meets the ledger action by action, yet what becomes of a resource has a simple form. A thread
that releases the resource decides by itself whether it holds it at the end, whoever held it before.
A thread that does not release it leaves it with its owner, or takes it if it is free and the thread
locks it at all. The thread has then had its way, so running it once more changes nothing.
-/

namespace LockExplorer

/-- The actions after the last release of a resource; all of them when there is none. -/
def Action.sinceUnlock (resource : Resource) (actions : List Action) : List Action :=
  actions.rtakeWhile fun action => decide (action ≠ .unlock resource)

namespace Ledger

theorem since_release_own (resource : Resource) (thread : ThreadId) (actions : List Action) :
    sinceRelease resource (actions.map fun action => (thread, action)) =
      (Action.sinceUnlock resource actions).map fun action => (thread, action) := by
  simp only [sinceRelease, Action.sinceUnlock, List.rtakeWhile, ← List.map_reverse,
    List.takeWhile_map]
  rfl

/-- The owner of a resource after the actions of one thread. -/
theorem owner_of_replayed_own (ledger : Ledger) (thread : ThreadId) (actions : List Action)
    (resource : Resource) :
    (ledger.replayed (actions.map fun action => (thread, action))).ownerOf? resource =
      if .unlock resource ∈ actions then
        if .lock resource ∈ Action.sinceUnlock resource actions then some thread else none
      else (ledger.ownerOf? resource).or
        (if .lock resource ∈ actions then some thread else none) := by
  have releases : (∃ entry ∈ actions.map fun action => (thread, action),
      entry.2 = .unlock resource) ↔ .unlock resource ∈ actions := by
    simp
  rw [owner_of_replayed, since_release_own, first_locker_own, first_locker_own]
  simp only [releases]

end Ledger

namespace Simulation

theorem owner_of_run (simulation : Simulation) (thread : Thread) (resource : Resource) :
    (simulation.run thread).2.2.ledger.ownerOf? resource =
      if .unlock resource ∈ thread.actions then
        if .lock resource ∈ Action.sinceUnlock resource thread.actions then some thread.id
        else none
      else (simulation.ledger.ownerOf? resource).or
        (if .lock resource ∈ thread.actions then some thread.id else none) := by
  rw [ledger_run]
  exact Ledger.owner_of_replayed_own simulation.ledger thread.id thread.actions resource

theorem ledger_run_again (simulation : Simulation) {thread other : Thread}
    (sameId : other.id = thread.id) (sameActions : other.actions = thread.actions) :
    ((simulation.run thread).2.2.run other).2.2.ledger = (simulation.run thread).2.2.ledger := by
  apply Ledger.ext_owner_of
  intro resource
  rw [owner_of_run, owner_of_run, sameId, sameActions]
  -- With a release the earlier owner does not count. Without one it does, and after the first run
  -- it is already what the second run would make of it.
  split
  · rfl
  · rw [Option.or_assoc, Option.or_self]

/-- The owners after a run, for any thread at any cursor and any ledger. If the thread releases a
resource, it holds it exactly when one of its locks follows the last release. If it does not, a held
resource keeps its owner, and a free one is the thread's when it has a lock of it. Running the
thread again right away leaves the ledger as it is. -/
theorem owner_after_run (simulation : Simulation) (thread : Thread) :
    let ran := simulation.run thread
    (∀ resource, ran.2.2.ledger.ownerOf? resource =
      if .unlock resource ∈ thread.actions then
        if .lock resource ∈ Action.sinceUnlock resource thread.actions then some thread.id
        else none
      else (simulation.ledger.ownerOf? resource).or
        (if .lock resource ∈ thread.actions then some thread.id else none)) ∧
      (ran.2.2.run ran.1).2.2.ledger = ran.2.2.ledger := by
  constructor
  · exact owner_of_run simulation thread
  · apply ledger_run_again
    · rw [run_eq]
    · rw [run_eq]

end Simulation

end LockExplorer
