import LockExplorer.Exploration
import LockExplorer.Proofs.Orderings.Multiplicity
import LockExplorer.Proofs.Run.Replay

/-!
# An exploration as a sequence of orderings

An exploration pulls orderings from an enumeration while its budget lasts. It therefore runs the
first so many orderings of the swap recursion, one after the other, and its ledger is that of all
their histories in a row.
-/

namespace LockExplorer

namespace Exploration

def historyOf (ordering : List Thread) : List (ThreadId × Action) :=
  ordering.flatMap Thread.history

def orderingsWithin (threads : List Thread) (limit : Option UInt64) : List (List Thread) :=
  (SwapRecursion.orderings threads).take (budget limit)

/-! ## One ordering -/

/-- A run changes the shared simulation and adds at most one report. -/
theorem run_thread_eq (exploration : Exploration) (thread : Thread) :
    exploration.runThread thread =
      let ran := (exploration.simulation.narrate (Line.running thread.id)).replayAll thread.id
        thread.actions {}
      { exploration with
        simulation := ran.2
        deadlocks := exploration.deadlocks ++
          (ran.1.deadlock.map (Report.mk exploration.explored thread.id)).toArray } := by
  rw [runThread, Simulation.run_eq]
  generalize Simulation.replayAll _ thread.id thread.actions {} = ran
  obtain ⟨⟨executed, failed, deadlock⟩, simulation⟩ := ran
  cases deadlock with
  | none => simp
  | some involved => simp

theorem ledger_run_thread (exploration : Exploration) (thread : Thread) :
    (exploration.runThread thread).simulation.ledger =
      exploration.simulation.ledger.replayed thread.history := by
  rw [run_thread_eq]
  exact Simulation.ledger_replay_all _ _ _ _

theorem run_threads_spec (ordering : List Thread) (exploration : Exploration) :
    (ordering.foldl runThread exploration).explored = exploration.explored ∧
      (ordering.foldl runThread exploration).orderings = exploration.orderings ∧
      (ordering.foldl runThread exploration).simulation.ledger =
        exploration.simulation.ledger.replayed (historyOf ordering) := by
  induction ordering generalizing exploration with
  | nil => exact ⟨rfl, rfl, rfl⟩
  | cons thread later induction =>
      obtain ⟨explored, orderings, ledger⟩ := induction (exploration.runThread thread)
      rw [List.foldl_cons]
      refine ⟨?_, ?_, ?_⟩
      · rw [explored, run_thread_eq]
      · rw [orderings, run_thread_eq]
      · rw [ledger, ledger_run_thread, ← Ledger.replayed_append]
        rfl

theorem run_ordering_spec (exploration : Exploration) (ordering : List Thread) :
    (exploration.runOrdering ordering).explored = exploration.explored + 1 ∧
      (exploration.runOrdering ordering).orderings =
        exploration.orderings.push (ordering.map Thread.id) ∧
      (exploration.runOrdering ordering).simulation.ledger =
        exploration.simulation.ledger.replayed (historyOf ordering) := by
  let order := ordering.map Thread.id
  let event := TraceEvent.orderingStarted exploration.explored order
    exploration.simulation.ledger.size
  let announced := (exploration.simulation.record event).narrate (Line.exploring order)
  obtain ⟨explored, orderings, ledger⟩ :=
    run_threads_spec ordering { exploration with simulation := announced }
  refine ⟨?_, ?_, ledger⟩
  · exact congrArg (· + 1) explored
  · exact congrArg (Array.push · order) orderings

/-! ## All orderings -/

theorem run_orderings_spec (sequence : List (List Thread)) (exploration : Exploration) :
    (sequence.foldl runOrdering exploration).explored = exploration.explored + sequence.length ∧
      (sequence.foldl runOrdering exploration).orderings =
        exploration.orderings ++ (sequence.map fun ordering => ordering.map Thread.id).toArray ∧
      (sequence.foldl runOrdering exploration).simulation.ledger =
        exploration.simulation.ledger.replayed (sequence.flatMap historyOf) := by
  induction sequence generalizing exploration with
  | nil => exact ⟨rfl, by simp, rfl⟩
  | cons ordering later induction =>
      obtain ⟨explored, orderings, ledger⟩ := induction (exploration.runOrdering ordering)
      obtain ⟨firstExplored, firstOrderings, firstLedger⟩ := run_ordering_spec exploration ordering
      rw [List.foldl_cons]
      refine ⟨?_, ?_, ?_⟩
      · rw [explored, firstExplored, List.length_cons]
        omega
      · rw [orderings, firstOrderings]
        simp
      · rw [ledger, firstLedger, List.flatMap_cons, ← Ledger.replayed_append]

/-- A bounded exploration runs what its enumeration yields, as far as the budget goes, and traces
the limit when something is left over. -/
theorem run_within_eq {orderings : Orderings Thread} {sequence : List (List Thread)}
    (yields : orderings.Yields sequence) (exploration : Exploration) (budget : Nat) :
    exploration.runWithin orderings budget =
      let ran := (sequence.take budget).foldl runOrdering exploration
      if budget < sequence.length then
        { ran with simulation := ran.simulation.record (.limitReached ran.explored) }
      else ran := by
  induction sequence generalizing orderings exploration budget with
  | nil =>
      have given := yields.next_eq_none
      unfold runWithin
      generalize orderings.next = result at given
      obtain ⟨first, rest⟩ := result
      change first = none at given
      rw [given]
      simp
  | cons ordering later induction =>
      obtain ⟨given, laterYields⟩ := yields.next_eq_some
      unfold runWithin
      generalize orderings.next = result at given laterYields
      obtain ⟨first, rest⟩ := result
      change first = some ordering at given
      rw [given]
      cases budget with
      | zero => simp
      | succ budget =>
          simp only [List.take_succ_cons, List.foldl_cons, List.length_cons,
            Nat.add_lt_add_iff_right]
          exact induction laterYields (exploration.runOrdering ordering) budget

theorem run_within_spec {orderings : Orderings Thread} {sequence : List (List Thread)}
    (yields : orderings.Yields sequence) (exploration : Exploration) (budget : Nat) :
    (exploration.runWithin orderings budget).explored =
        exploration.explored + (sequence.take budget).length ∧
      (exploration.runWithin orderings budget).orderings = exploration.orderings ++
        ((sequence.take budget).map fun ordering => ordering.map Thread.id).toArray ∧
      (exploration.runWithin orderings budget).simulation.ledger =
        exploration.simulation.ledger.replayed ((sequence.take budget).flatMap historyOf) := by
  rw [run_within_eq yields]
  dsimp only
  split <;> exact run_orderings_spec (sequence.take budget) exploration

theorem explore_spec (threads : List Thread) (limit : Option UInt64) :
    (explore threads limit).explored = (orderingsWithin threads limit).length ∧
      (explore threads limit).orderings =
        ((orderingsWithin threads limit).map fun ordering => ordering.map Thread.id).toArray ∧
      (explore threads limit).simulation.ledger =
        Ledger.empty.replayed ((orderingsWithin threads limit).flatMap historyOf) := by
  let started := Simulation.empty.record
    (.started threads.length (Orderings.ofList threads).total? limit)
  obtain ⟨explored, orderings, ledger⟩ := run_within_spec (Orderings.yields_of_list threads)
    { empty with simulation := started } (budget limit)
  refine ⟨explored.trans (Nat.zero_add _), orderings.trans ?_, ledger⟩
  exact Array.empty_append

end Exploration

end LockExplorer
