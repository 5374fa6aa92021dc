import LockExplorer.Proofs.Exploration.ThreadRuns

/-!
# Exploring by position

An exploration can also keep its threads in one array, enumerate the positions of that array, and
count in sixty-four bits. Threads are then looked up where an ordering names them, and each run
leaves its thread finished in the array for the next one. Here every look-up and every count is
checked, so that a position outside the array or a count beyond the last number gives no result at
all. This never happens, and the result is that of the exploration which enumerates the threads
themselves.
-/

namespace LockExplorer

structure Positional where
  threads : Array Thread
  orderings : Array (List ThreadId)
  deadlocks : Array Report
  simulation : Simulation

namespace Positional

def names? (state : Positional) (positions : List Nat) : Option (List ThreadId) :=
  positions.mapM fun position => state.threads[position]?.map Thread.id

end Positional

theorem Thread.id_eq_of_reset {left right : Thread} (same : left.reset = right.reset) :
    left.id = right.id :=
  (Thread.mk.inj same).1

/-! ## Both explorations in step -/

variable {threads : List Thread} {state : Positional} {exploration : Exploration}

/-- The two have gathered the same, and the array holds the threads, however far they have run. -/
structure Positional.Shows (threads : List Thread) (state : Positional)
    (exploration : Exploration) : Prop where
  threads : state.threads.toList.map Thread.reset = threads.map Thread.reset
  orderings : state.orderings = exploration.orderings
  deadlocks : state.deadlocks = exploration.deadlocks
  simulation : state.simulation = exploration.simulation

namespace Positional

theorem Shows.thread (shows : Shows threads state exploration) {position : Nat} {thread : Thread}
    (listed : threads[position]? = some thread) :
    ∃ kept, state.threads[position]? = some kept ∧ kept.reset = thread.reset := by
  have there := congrArg (fun list => list[position]?) shows.threads
  simp only [List.getElem?_map, listed, Option.map_some, Array.getElem?_toList] at there
  exact Option.map_eq_some_iff.mp there

theorem Shows.names (shows : Shows threads state exploration) {positions : List Nat}
    {ordering : List Thread}
    (listed : positions.map (fun position => threads[position]?) = ordering.map some) :
    state.names? positions = some (ordering.map Thread.id) := by
  unfold Positional.names?
  induction ordering generalizing positions with
  | nil =>
      rw [List.map_nil, List.map_eq_nil_iff] at listed
      rw [listed]
      rfl
  | cons thread later induction =>
      obtain ⟨position, rest, rfl, first, others⟩ := List.map_eq_cons_iff.mp listed
      obtain ⟨kept, found, same⟩ := shows.thread first
      rw [List.mapM_cons, found, induction others, Option.map_some, Thread.id_eq_of_reset same]
      rfl

end Positional

end LockExplorer
