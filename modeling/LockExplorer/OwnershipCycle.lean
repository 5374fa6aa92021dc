import LockExplorer.Ledger

/-!
# Ownership cycles

A thread's name, read as the name of a resource, leads to the thread that holds that resource.
Following these steps from the owner of each held resource, in resource order, either stops or comes
back to a thread that is already on the path. The first thread met again in this way is reported.

Threads whose steps are known to stop are remembered for all later starts; the path itself is
started afresh for each. `cycle?` is the search of `DeadlockDetector::check`, and `Ledger.walk` the
recursive function `walk` behind it, with its `visited` and `stack` passed on as values.
-/

namespace LockExplorer

namespace Ledger

def successor? (ledger : Ledger) (thread : ThreadId) : Option ThreadId :=
  ledger.ownerOf? thread.asResource

/-- The held resources whose names no visited thread carries. -/
def unvisited (ledger : Ledger) (visited : List ThreadId) : List (Resource × ThreadId) :=
  ledger.entries.filter fun entry => decide ((⟨entry.1.name⟩ : ThreadId) ∉ visited)

theorem mem_entries_of_owner_of {ledger : Ledger} {resource : Resource} {thread : ThreadId}
    (held : ledger.ownerOf? resource = some thread) : (resource, thread) ∈ ledger.entries := by
  unfold ownerOf? at held
  generalize ledger.entries = entries at held
  induction entries with
  | nil => simp at held
  | cons entry rest ih =>
      obtain ⟨key, owner⟩ := entry
      rw [List.lookup_cons] at held
      split at held
      · next same =>
          have key_eq : resource = key := by simpa using same
          simp_all
      · exact List.mem_cons_of_mem _ (ih held)

/-- Visiting a thread that has a successor leaves fewer resources unvisited, because the resource
that is spelled like the thread is held. -/
theorem length_unvisited_cons_lt {ledger : Ledger} {thread next : ThreadId}
    {visited : List ThreadId} (fresh : thread ∉ visited)
    (step : ledger.successor? thread = some next) :
    (ledger.unvisited (thread :: visited)).length < (ledger.unvisited visited).length := by
  have member := mem_entries_of_owner_of step
  have narrower : ledger.unvisited (thread :: visited) =
      (ledger.unvisited visited).filter fun entry => decide (entry.1.name ≠ thread.name) := by
    unfold unvisited
    rw [List.filter_filter]
    congr 1
    funext entry
    cases thread
    simp
  rw [narrower]
  refine List.length_filter_lt_length_iff_exists.mpr ⟨(thread.asResource, next), ?_, ?_⟩
  · exact List.mem_filter.mpr ⟨member, decide_eq_true fresh⟩
  · simp [ThreadId.asResource]

/-- What a walk leaves behind: the thread that it met again, the threads it has visited so far, and
the path it was on. -/
structure Walk where
  found : Option ThreadId
  visited : List ThreadId
  path : List ThreadId
deriving DecidableEq

/-- Walks on from a thread. The walk ends with a find when the thread is already on the path, and
without one when the thread has been visited before or has no successor. -/
def walk (ledger : Ledger) (thread : ThreadId) (visited path : List ThreadId) : Walk :=
  if thread ∈ path then ⟨some thread, visited, path⟩
  else if thread ∈ visited then ⟨none, visited, path⟩
  else
    match _step : ledger.successor? thread with
    | none => ⟨none, thread :: visited, path⟩
    | some next =>
        let onward := walk ledger next (thread :: visited) (thread :: path)
        match onward.found with
        | some _ => onward
        | none => { onward with path := onward.path.erase thread }
termination_by (ledger.unvisited visited).length
decreasing_by exact length_unvisited_cons_lt ‹_› _step

/-- Walks from each thread in turn, each on a path of its own, until one walk finds something. -/
def walkEach (ledger : Ledger) : List ThreadId → List ThreadId → Option ThreadId
  | [], _ => none
  | start :: later, visited =>
      let walked := ledger.walk start visited []
      match walked.found with
      | some thread => some thread
      | none => walkEach ledger later walked.visited

def cycle? (ledger : Ledger) : Option ThreadId :=
  ledger.walkEach ledger.owners []

end Ledger

end LockExplorer
