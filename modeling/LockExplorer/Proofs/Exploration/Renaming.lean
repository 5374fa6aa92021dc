import LockExplorer.Proofs.Exploration.SideBySide
import LockExplorer.Proofs.OwnershipCycle.Renaming

/-!
# Explorations of renamed threads

Spelling the names differently, in such a way that different names stay different, does not change
what an exploration finds. Each check finds a cycle exactly when it did before, so the same runs are
reported and the log has as many lines. Only the thread that a report names may be another one of
the same cycle, unless the spelling keeps the order of the names.
-/

namespace LockExplorer

/-! ## One renamed run -/

def Thread.renamed (rename : String → String) (thread : Thread) : Thread :=
  { thread with
    id := thread.id.renamed rename
    actions := thread.actions.map (Action.renamed rename) }

def Report.renamed (rename : String → String) (report : Report) : Report :=
  ⟨report.ordering, report.running.renamed rename, report.involved.renamed rename⟩

/-- Who ran in which ordering when something was reported. -/
def Report.occasion (report : Report) : Nat × ThreadId :=
  (report.ordering, report.running)

namespace Ledger.Renames

variable {rename : String → String} {left right : Ledger}

theorem is_some_verdicts_from (injective : Function.Injective rename)
    (renames : Renames rename left right) (thread : ThreadId) (actions : List Action) :
    (right.verdictsFrom (thread.renamed rename) (actions.map (Action.renamed rename))).map
        Option.isSome =
      (left.verdictsFrom thread actions).map Option.isSome := by
  induction actions generalizing left right with
  | nil => rfl
  | cons action later induction =>
      have next := renames.step injective thread action
      rw [List.map_cons, verdictsFrom, verdictsFrom, List.map_cons, List.map_cons, induction next,
        next.is_some_cycle injective]

theorem verdicts_from_eq (injective : Function.Injective rename) (ordered : KeepsOrder rename)
    (renames : Renames rename left right) (thread : ThreadId) (actions : List Action) :
    right.verdictsFrom (thread.renamed rename) (actions.map (Action.renamed rename)) =
      (left.verdictsFrom thread actions).map (Option.map (ThreadId.renamed rename)) := by
  induction actions generalizing left right with
  | nil => rfl
  | cons action later induction =>
      have next := renames.step injective thread action
      rw [List.map_cons, verdictsFrom, verdictsFrom, List.map_cons, induction next,
        next.cycle_eq injective ordered]

end Ledger.Renames

namespace ThreadRun

variable {rename : String → String} {run other : ThreadRun}

theorem is_some_verdicts_beside (injective : Function.Injective rename)
    (beside : run.Beside (Ledger.Renames rename) (Thread.renamed rename) other) :
    other.verdicts.map Option.isSome = run.verdicts.map Option.isSome := by
  rw [verdicts, beside.thread]
  exact beside.before.is_some_verdicts_from injective run.thread.id run.thread.actions

theorem length_lines_beside (injective : Function.Injective rename)
    (beside : run.Beside (Ledger.Renames rename) (Thread.renamed rename) other) :
    other.lines.length = run.lines.length := by
  have finds : other.verdicts.countP Option.isSome = run.verdicts.countP Option.isSome := by
    have same := congrArg (List.countP id) (is_some_verdicts_beside injective beside)
    rw [List.countP_map, List.countP_map] at same
    exact same
  rw [length_lines, length_lines, finds, beside.thread, Thread.renamed, List.length_map]

theorem occasion_report (run : ThreadRun) :
    run.report?.map Report.occasion =
      if run.verdicts.any Option.isSome then some (run.ordering, run.thread.id) else none := by
  have some : run.verdicts.any Option.isSome = (run.verdicts.findSome? id).isSome :=
    List.isSome_findSome?.symm
  rw [report_eq, Option.map_map, some]
  cases run.verdicts.findSome? id <;> rfl

theorem occasion_beside (injective : Function.Injective rename)
    (beside : run.Beside (Ledger.Renames rename) (Thread.renamed rename) other) :
    other.report?.map Report.occasion =
      (run.report?.map Report.occasion).map (Prod.map id (ThreadId.renamed rename)) := by
  have finds : other.verdicts.any Option.isSome = run.verdicts.any Option.isSome := by
    have same := congrArg (List.any · id) (is_some_verdicts_beside injective beside)
    simp only [List.any_map] at same
    exact same
  rw [occasion_report, occasion_report, finds, beside.ordering, beside.thread]
  cases run.verdicts.any Option.isSome <;> rfl

theorem report_beside (injective : Function.Injective rename) (ordered : KeepsOrder rename)
    (beside : run.Beside (Ledger.Renames rename) (Thread.renamed rename) other) :
    other.report? = run.report?.map (Report.renamed rename) := by
  have same : other.verdicts = run.verdicts.map (Option.map (ThreadId.renamed rename)) := by
    rw [verdicts, beside.thread]
    exact beside.before.verdicts_from_eq injective ordered run.thread.id run.thread.actions
  have first : other.verdicts.findSome? id =
      (run.verdicts.findSome? id).map (ThreadId.renamed rename) := by
    rw [same, List.findSome?_map, List.map_findSome?]
    rfl
  rw [report_eq, report_eq, first, beside.ordering, beside.thread, Option.map_map,
    Option.map_map]
  rfl

end ThreadRun

/-! ## The exploration -/

namespace Exploration

variable {rename : String → String} {threads : List Thread} {limit : Option UInt64}

theorem keeps_renames (injective : Function.Injective rename) :
    Keeps (Ledger.Renames rename) (Thread.renamed rename) := by
  intro thread left right renames
  exact renames.replayed injective thread.id thread.actions

theorem orderings_renamed (rename : String → String) (threads : List Thread)
    (limit : Option UInt64) :
    (explore (threads.map (Thread.renamed rename)) limit).orderings =
      (explore threads limit).orderings.map (List.map (ThreadId.renamed rename)) := by
  rw [(explore_spec _ limit).2.1, (explore_spec threads limit).2.1, orderings_within_map,
    List.map_map, List.map_toArray, List.map_map]
  congr 1
  apply List.map_congr_left
  intro ordering _
  simp only [Function.comp_apply, List.map_map]
  rfl

theorem length_log_renamed (injective : Function.Injective rename) :
    (explore (threads.map (Thread.renamed rename)) limit).simulation.log.size =
      (explore threads limit).simulation.log.size := by
  rw [← Log.length_to_list, ← Log.length_to_list, log_explore, log_explore]
  apply length_flat_map_eq_of_forall₂
    ((keeps_renames injective).explore (Ledger.Renames.empty rename) threads limit).1
  intro runs others beside
  have lines := length_flat_map_eq_of_forall₂ beside fun run other =>
    ThreadRun.length_lines_beside injective
  rw [orderingLines, orderingLines, List.length_cons, List.length_cons, lines]

theorem occasions_renamed (injective : Function.Injective rename) (threads : List Thread)
    (limit : Option UInt64) :
    (explore (threads.map (Thread.renamed rename)) limit).deadlocks.toList.map Report.occasion =
      ((explore threads limit).deadlocks.toList.map Report.occasion).map
        (Prod.map id (ThreadId.renamed rename)) := by
  rw [deadlocks_explore, deadlocks_explore, List.map_filterMap, List.map_filterMap,
    List.map_filterMap]
  apply filter_map_eq_of_forall₂
    ((keeps_renames injective).thread_runs (Ledger.Renames.empty rename) threads limit)
  intro run other beside
  exact ThreadRun.occasion_beside injective beside

theorem deadlocks_renamed (injective : Function.Injective rename) (ordered : KeepsOrder rename) :
    (explore (threads.map (Thread.renamed rename)) limit).deadlocks.toList =
      (explore threads limit).deadlocks.toList.map (Report.renamed rename) := by
  rw [deadlocks_explore, deadlocks_explore, List.map_filterMap]
  apply filter_map_eq_of_forall₂
    ((keeps_renames injective).thread_runs (Ledger.Renames.empty rename) threads limit)
  intro run other beside
  exact ThreadRun.report_beside injective ordered beside

/-- The findings do not depend on how names are spelled. When all names of threads and resources are
replaced, different ones by different ones, as many orderings are run and as many lines are logged;
orderings and held resources are those of before under their new names; and reports are made on the
same occasions. When the new names stand in the order of the old ones, the reports also name the
same threads. -/
theorem explore_renamed (threads : List Thread) (limit : Option UInt64)
    (rename : String → String) (injective : Function.Injective rename) :
    let result := explore threads limit
    let renamed := explore (threads.map (Thread.renamed rename)) limit
    renamed.explored = result.explored ∧
      renamed.simulation.log.size = result.simulation.log.size ∧
      renamed.orderings = result.orderings.map (List.map (ThreadId.renamed rename)) ∧
      renamed.simulation.ledger.entries.Perm (result.simulation.ledger.entries.map fun entry =>
        (entry.1.renamed rename, entry.2.renamed rename)) ∧
      renamed.deadlocks.toList.map (fun report => (report.ordering, report.running)) =
        result.deadlocks.toList.map (fun report =>
          (report.ordering, report.running.renamed rename)) ∧
      ((∀ first second, first < second → rename first < rename second) →
        renamed.deadlocks.toList = result.deadlocks.toList.map (Report.renamed rename)) := by
  have ledgers := ((keeps_renames injective).explore (Ledger.Renames.empty rename) threads limit).2
  constructor
  · rw [(explore_spec _ limit).1, (explore_spec threads limit).1, orderings_within_map,
      List.length_map]
  constructor
  · exact length_log_renamed injective
  constructor
  · exact orderings_renamed rename threads limit
  constructor
  · exact ledgers.perm_entries injective
  constructor
  · have occasions := occasions_renamed injective threads limit
    rw [List.map_map] at occasions
    exact occasions
  · intro ordered
    exact deadlocks_renamed injective ordered

theorem explore_renamed_entangled :
    Function.Injective ("x" ++ ·) ∧
      (∀ first second : String, first < second → "x" ++ first < "x" ++ second) ∧
      (explore (entangled.map (Thread.renamed ("x" ++ ·))) none).deadlocks.toList =
        [⟨0, ⟨"xB"⟩, ⟨"xB"⟩⟩, ⟨1, ⟨"xB"⟩, ⟨"xB"⟩⟩, ⟨1, ⟨"xA"⟩, ⟨"xB"⟩⟩] := by
  have injective : Function.Injective ("x" ++ ·) := by
    intro first second same
    exact (String.append_right_inj "x").mp same
  have ordered : ∀ first second : String, first < second → "x" ++ first < "x" ++ second := by
    intro first second below
    rw [String.lt_iff, String.toList_append, String.toList_append]
    exact List.append_left_lt (String.lt_iff.mp below)
  have found : (explore entangled none).deadlocks.toList =
      [⟨0, ⟨"B"⟩, ⟨"B"⟩⟩, ⟨1, ⟨"B"⟩, ⟨"B"⟩⟩, ⟨1, ⟨"A"⟩, ⟨"B"⟩⟩] := by decide +kernel
  have renamed := (explore_renamed entangled none ("x" ++ ·) injective).2.2.2.2.2 ordered
  rw [found] at renamed
  exact ⟨injective, ordered, renamed⟩

end Exploration

end LockExplorer
