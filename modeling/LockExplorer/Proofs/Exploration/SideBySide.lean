import LockExplorer.Proofs.Exploration.ThreadRuns
import Mathlib.Data.List.Forall2

/-!
# Two explorations side by side

The runs of an exploration are grouped by ordering, which gives each run its place and the log its
shape. When every thread is changed in some way, the orderings change along, so that the runs of
both explorations stand side by side. A relation between the two ledgers that each thread and its
changed form keep then holds before every run and at the end.
-/

namespace LockExplorer

namespace Exploration

/-! ## The runs of each ordering -/

def runsByOrdering (exploration : Exploration) : List (List Thread) → List (List ThreadRun)
  | [] => []
  | ordering :: later =>
      (exploration.announce ordering).runsOf ordering ::
        (exploration.runOrdering ordering).runsByOrdering later

theorem flatten_runs_by_ordering (sequence : List (List Thread)) (exploration : Exploration) :
    (exploration.runsByOrdering sequence).flatten = exploration.runsThrough sequence := by
  induction sequence generalizing exploration with
  | nil => rfl
  | cons ordering later induction =>
      rw [runsByOrdering, List.flatten_cons, induction]
      rfl

theorem threads_runs_by_ordering (sequence : List (List Thread)) (exploration : Exploration) :
    (exploration.runsByOrdering sequence).map (List.map ThreadRun.thread) = sequence := by
  induction sequence generalizing exploration with
  | nil => rfl
  | cons ordering later induction =>
      rw [runsByOrdering, List.map_cons, induction, threads_runs_of]

def orderingLines (runs : List ThreadRun) : List String :=
  Line.exploring (runs.map fun run => run.thread.id) :: runs.flatMap ThreadRun.lines

theorem log_runs_by_ordering (sequence : List (List Thread)) (exploration : Exploration) :
    (sequence.foldl runOrdering exploration).simulation.log.toList =
      exploration.simulation.log.toList ++
        (exploration.runsByOrdering sequence).flatMap orderingLines := by
  induction sequence generalizing exploration with
  | nil => exact (List.append_nil _).symm
  | cons ordering later induction =>
      have announced : (exploration.announce ordering).simulation.log.toList =
          exploration.simulation.log.toList ++ [Line.exploring (ordering.map Thread.id)] :=
        Log.to_list_append _ _
      have first : (exploration.runOrdering ordering).simulation.log.toList = _ :=
        log_run_threads ordering (exploration.announce ordering)
      rw [List.foldl_cons, induction, first, announced, runsByOrdering, List.flatMap_cons,
        orderingLines, ids_runs_of]
      simp only [List.append_assoc, List.cons_append, List.nil_append]

def orderingRuns (threads : List Thread) (limit : Option UInt64) : List (List ThreadRun) :=
  (started threads limit).runsByOrdering (orderingsWithin threads limit)

theorem flatten_ordering_runs (threads : List Thread) (limit : Option UInt64) :
    (orderingRuns threads limit).flatten = threadRuns threads limit :=
  flatten_runs_by_ordering _ _

theorem threads_ordering_runs (threads : List Thread) (limit : Option UInt64) :
    (orderingRuns threads limit).map (List.map ThreadRun.thread) =
      orderingsWithin threads limit :=
  threads_runs_by_ordering _ _

theorem log_explore (threads : List Thread) (limit : Option UInt64) :
    (explore threads limit).simulation.log.toList =
      (orderingRuns threads limit).flatMap orderingLines := by
  rw [(explore_eq_run_orderings threads limit).2.2]
  exact log_runs_by_ordering (orderingsWithin threads limit) (started threads limit)

end Exploration

/-! ## Changed threads -/

/-- The second run is that of the changed thread in the same place, and the two ledgers that the
runs find are related. -/
structure ThreadRun.Beside (related : Ledger → Ledger → Prop) (change : Thread → Thread)
    (run other : ThreadRun) : Prop where
  ordering : other.ordering = run.ordering
  thread : other.thread = change run.thread
  before : related run.before.ledger other.before.ledger

/-- What is collected from items that stand side by side is the same if each gives the same. -/
theorem flat_map_eq_of_forall₂ {α β γ : Type} {alike : α → β → Prop} {left : List α}
    {right : List β} {first : α → List γ} {second : β → List γ}
    (lists : List.Forall₂ alike left right)
    (same : ∀ item other, alike item other → second other = first item) :
    right.flatMap second = left.flatMap first := by
  induction lists with
  | nil => rfl
  | cons head _ induction =>
      rw [List.flatMap_cons, List.flatMap_cons, induction, same _ _ head]

theorem filter_map_eq_of_forall₂ {α β γ : Type} {alike : α → β → Prop} {left : List α}
    {right : List β} {first : α → Option γ} {second : β → Option γ}
    (lists : List.Forall₂ alike left right)
    (same : ∀ item other, alike item other → second other = first item) :
    right.filterMap second = left.filterMap first := by
  rw [List.filterMap_eq_flatMap_toList, List.filterMap_eq_flatMap_toList]
  apply flat_map_eq_of_forall₂ lists
  intro item other beside
  rw [same item other beside]

theorem length_flat_map_eq_of_forall₂ {α β γ : Type} {alike : α → β → Prop} {left : List α}
    {right : List β} {first : α → List γ} {second : β → List γ}
    (lists : List.Forall₂ alike left right)
    (same : ∀ item other, alike item other → (second other).length = (first item).length) :
    (right.flatMap second).length = (left.flatMap first).length := by
  induction lists with
  | nil => rfl
  | cons head _ induction =>
      rw [List.flatMap_cons, List.flatMap_cons, List.length_append, List.length_append, induction,
        same _ _ head]

namespace Exploration

variable {related : Ledger → Ledger → Prop} {change : Thread → Thread} {left right : Exploration}

/-- A thread and its changed form lead from related ledgers to related ledgers. -/
def Keeps (related : Ledger → Ledger → Prop) (change : Thread → Thread) : Prop :=
  ∀ thread left right, related left right →
    related (left.replayed thread.history) (right.replayed (change thread).history)

theorem Keeps.runs_of (keeps : Keeps related change) (ordering : List Thread)
    (counted : right.explored = left.explored)
    (start : related left.simulation.ledger right.simulation.ledger) :
    List.Forall₂ (ThreadRun.Beside related change) (left.runsOf ordering)
        (right.runsOf (ordering.map change)) ∧
      related (ordering.foldl runThread left).simulation.ledger
        ((ordering.map change).foldl runThread right).simulation.ledger := by
  induction ordering generalizing left right with
  | nil => exact ⟨List.Forall₂.nil, start⟩
  | cons thread later induction =>
      have step : related (left.runThread thread).simulation.ledger
          (right.runThread (change thread)).simulation.ledger := by
        rw [ledger_run_thread, ledger_run_thread]
        exact keeps thread _ _ start
      have nextCounted : (right.runThread (change thread)).explored =
          (left.runThread thread).explored := by
        rw [explored_run_thread, explored_run_thread, counted]
      have rest := induction nextCounted step
      exact ⟨List.Forall₂.cons ⟨counted, rfl, start⟩ rest.1, rest.2⟩

theorem Keeps.runs_by_ordering (keeps : Keeps related change) (sequence : List (List Thread))
    (counted : right.explored = left.explored)
    (start : related left.simulation.ledger right.simulation.ledger) :
    List.Forall₂ (List.Forall₂ (ThreadRun.Beside related change)) (left.runsByOrdering sequence)
        (right.runsByOrdering (sequence.map (List.map change))) ∧
      related (sequence.foldl runOrdering left).simulation.ledger
        ((sequence.map (List.map change)).foldl runOrdering right).simulation.ledger := by
  induction sequence generalizing left right with
  | nil => exact ⟨List.Forall₂.nil, start⟩
  | cons ordering later induction =>
      have first : List.Forall₂ (ThreadRun.Beside related change)
            ((left.announce ordering).runsOf ordering)
            ((right.announce (ordering.map change)).runsOf (ordering.map change)) ∧
          related (left.runOrdering ordering).simulation.ledger
            (right.runOrdering (ordering.map change)).simulation.ledger :=
        keeps.runs_of ordering counted start
      have nextCounted : (right.runOrdering (ordering.map change)).explored =
          (left.runOrdering ordering).explored := by
        rw [(run_ordering_spec left ordering).1, (run_ordering_spec right _).1, counted]
      have rest := induction nextCounted first.2
      exact ⟨List.Forall₂.cons first.1 rest.1, rest.2⟩

theorem orderings_within_map (change : Thread → Thread) (threads : List Thread)
    (limit : Option UInt64) :
    orderingsWithin (threads.map change) limit =
      (orderingsWithin threads limit).map (List.map change) := by
  rw [orderingsWithin, orderingsWithin, SwapRecursion.orderings_map, List.map_take]

theorem Keeps.explore (keeps : Keeps related change) (start : related Ledger.empty Ledger.empty)
    (threads : List Thread) (limit : Option UInt64) :
    List.Forall₂ (List.Forall₂ (ThreadRun.Beside related change)) (orderingRuns threads limit)
        (orderingRuns (threads.map change) limit) ∧
      related (explore threads limit).simulation.ledger
        (explore (threads.map change) limit).simulation.ledger := by
  rw [orderingRuns, orderingRuns, (explore_eq_run_orderings threads limit).2.1,
    (explore_eq_run_orderings (threads.map change) limit).2.1, orderings_within_map]
  exact keeps.runs_by_ordering (orderingsWithin threads limit) rfl start

theorem Keeps.thread_runs (keeps : Keeps related change)
    (start : related Ledger.empty Ledger.empty) (threads : List Thread) (limit : Option UInt64) :
    List.Forall₂ (ThreadRun.Beside related change) (Exploration.threadRuns threads limit)
      (Exploration.threadRuns (threads.map change) limit) := by
  rw [← flatten_ordering_runs, ← flatten_ordering_runs]
  exact List.rel_flatten (keeps.explore start threads limit).1

end Exploration

end LockExplorer
