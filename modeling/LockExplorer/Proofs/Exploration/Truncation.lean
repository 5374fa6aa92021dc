import LockExplorer.Proofs.Exploration.SideBySide

/-!
# A limit only cuts off

Under a lower limit an exploration runs the first orderings that a higher one allows, and it runs
them from the same ledger. Only the opening event of the trace tells the two apart, and neither a
line nor a report depends on the trace. Hence orderings, lines and reports of the shorter
exploration are those of the longer one up to the cut.
-/

namespace LockExplorer

/-! ## Runs that differ in their trace only -/

/-- The same thread runs in the same place and finds the same ledger. -/
def ThreadRun.Alike (run other : ThreadRun) : Prop :=
  run.Beside Eq id other

namespace ThreadRun.Alike

variable {run other : ThreadRun} {runs others : List ThreadRun}

theorem lines_eq (alike : run.Alike other) : other.lines = run.lines := by
  have thread : other.thread = run.thread := alike.thread
  rw [lines, lines, thread, ← alike.before]

theorem report_eq (alike : run.Alike other) : other.report? = run.report? := by
  have thread : other.thread = run.thread := alike.thread
  have verdicts : other.verdicts = run.verdicts := by
    rw [ThreadRun.verdicts, ThreadRun.verdicts, thread, ← alike.before]
  rw [ThreadRun.report_eq, ThreadRun.report_eq, verdicts, alike.ordering, thread]

theorem ordering_lines_eq (alike : List.Forall₂ ThreadRun.Alike runs others) :
    Exploration.orderingLines others = Exploration.orderingLines runs := by
  have ids : others.map (fun run => run.thread.id) = runs.map fun run => run.thread.id := by
    induction alike with
    | nil => rfl
    | cons first _ induction =>
        have thread := first.thread
        rw [List.map_cons, List.map_cons, induction, thread]
        rfl
  have lines : others.flatMap ThreadRun.lines = runs.flatMap ThreadRun.lines := by
    apply flat_map_eq_of_forall₂ alike
    intro run other same
    exact same.lines_eq
  rw [Exploration.orderingLines, Exploration.orderingLines, ids, lines]

end ThreadRun.Alike

namespace Exploration

variable {threads : List Thread} {lower upper : Option UInt64}

theorem keeps_eq : Keeps Eq id := by
  rintro thread left _ rfl
  rfl

theorem runs_by_ordering_append (first second : List (List Thread)) (exploration : Exploration) :
    exploration.runsByOrdering (first ++ second) = exploration.runsByOrdering first ++
      (first.foldl runOrdering exploration).runsByOrdering second := by
  induction first generalizing exploration with
  | nil => rfl
  | cons ordering later induction =>
      rw [List.cons_append, runsByOrdering, runsByOrdering, List.cons_append, induction]
      rfl

/-- Runs are numbered on from the orderings that came before. -/
theorem ordering_bounds_of_mem_runs_through {sequence : List (List Thread)}
    {exploration : Exploration} {run : ThreadRun}
    (member : run ∈ exploration.runsThrough sequence) :
    exploration.explored ≤ run.ordering ∧
      run.ordering < exploration.explored + sequence.length := by
  have listed : (run.ordering, run.thread) ∈
      (exploration.runsThrough sequence).map fun run => (run.ordering, run.thread) :=
    List.mem_map_of_mem member
  rw [skeleton_runs_through] at listed
  rcases List.mem_flatMap.mp listed with ⟨entry, numbered, inside⟩
  rcases List.mem_map.mp inside with ⟨thread, _, same⟩
  have number : entry.2 = run.ordering := congrArg Prod.fst same
  have least := List.le_snd_of_mem_zipIdx numbered
  have most := List.snd_lt_of_mem_zipIdx numbered
  omega

/-! ## The cut -/

theorem orderings_within_append (ordered : budget lower ≤ budget upper) (threads : List Thread) :
    ∃ rest, orderingsWithin threads upper = orderingsWithin threads lower ++ rest := by
  rcases List.take_prefix_take_left (l := SwapRecursion.orderings threads) ordered with
    ⟨rest, parts⟩
  exact ⟨rest, parts.symm⟩

/-- Up to the cut the runs are alike; what comes after it has higher numbers. -/
theorem ordering_runs_append (ordered : budget lower ≤ budget upper) (threads : List Thread) :
    ∃ same rest, orderingRuns threads upper = same ++ rest ∧
      List.Forall₂ (List.Forall₂ ThreadRun.Alike) (orderingRuns threads lower) same ∧
      ∀ run ∈ rest.flatten, (explore threads lower).explored ≤ run.ordering := by
  rcases orderings_within_append ordered threads with ⟨rest, parts⟩
  let cut := (orderingsWithin threads lower).foldl runOrdering (started threads upper)
  refine ⟨(started threads upper).runsByOrdering (orderingsWithin threads lower),
    cut.runsByOrdering rest, ?_, ?_, ?_⟩
  · rw [orderingRuns, parts]
    exact runs_by_ordering_append _ _ _
  · have counted : (started threads upper).explored = (started threads lower).explored := rfl
    have start : (started threads lower).simulation.ledger =
        (started threads upper).simulation.ledger := rfl
    have beside := (keeps_eq.runs_by_ordering (orderingsWithin threads lower) counted start).1
    have unchanged : (orderingsWithin threads lower).map (List.map id) =
        orderingsWithin threads lower := by
      simp
    rw [unchanged] at beside
    exact beside
  · -- At the cut the longer exploration has run as many orderings as the shorter one ever runs.
    intro run member
    rw [flatten_runs_by_ordering] at member
    have counted : cut.explored = (explore threads lower).explored := by
      rw [(explore_spec threads lower).1]
      exact (run_orderings_spec _ _).1.trans (Nat.zero_add _)
    rw [← counted]
    exact (ordering_bounds_of_mem_runs_through member).1

theorem orderings_within (ordered : budget lower ≤ budget upper) (threads : List Thread) :
    (explore threads lower).orderings.toList <+: (explore threads upper).orderings.toList := by
  rcases orderings_within_append ordered threads with ⟨rest, parts⟩
  rw [(explore_spec threads lower).2.1, (explore_spec threads upper).2.1, parts, List.map_append]
  exact List.prefix_append _ _

theorem log_within (ordered : budget lower ≤ budget upper) (threads : List Thread) :
    (explore threads lower).simulation.log.toList <+:
      (explore threads upper).simulation.log.toList := by
  rcases ordering_runs_append ordered threads with ⟨same, rest, parts, alike, _⟩
  have lines : same.flatMap orderingLines =
      (orderingRuns threads lower).flatMap orderingLines := by
    apply flat_map_eq_of_forall₂ alike
    intro runs others
    exact ThreadRun.Alike.ordering_lines_eq
  rw [log_explore, log_explore, parts, List.flatMap_append, lines]
  exact List.prefix_append _ _

/-- The longer exploration adds reports of later orderings only. -/
theorem deadlocks_append (ordered : budget lower ≤ budget upper) (threads : List Thread) :
    ∃ more, (explore threads upper).deadlocks.toList =
        (explore threads lower).deadlocks.toList ++ more ∧
      ∀ report ∈ more, (explore threads lower).explored ≤ report.ordering := by
  rcases ordering_runs_append ordered threads with ⟨same, rest, parts, alike, behind⟩
  have reports : same.flatten.filterMap ThreadRun.report? =
      (explore threads lower).deadlocks.toList := by
    rw [deadlocks_explore, ← flatten_ordering_runs]
    apply filter_map_eq_of_forall₂ (List.rel_flatten alike)
    intro run other
    exact ThreadRun.Alike.report_eq
  refine ⟨rest.flatten.filterMap ThreadRun.report?, ?_, ?_⟩
  · rw [deadlocks_explore, ← flatten_ordering_runs, parts, List.flatten_append,
      List.filterMap_append, reports]
  · intro report member
    rcases List.mem_filterMap.mp member with ⟨run, listed, reported⟩
    rw [(ThreadRun.report_eq_some_iff.mp reported).1]
    exact behind run listed

theorem ordering_lt_explored {limit : Option UInt64} {report : Report}
    (member : report ∈ (explore threads limit).deadlocks.toList) :
    report.ordering < (explore threads limit).explored := by
  rw [deadlocks_explore] at member
  rcases List.mem_filterMap.mp member with ⟨run, listed, reported⟩
  have bounds := (ordering_bounds_of_mem_runs_through listed).2
  rw [(ThreadRun.report_eq_some_iff.mp reported).1, (explore_spec threads limit).1]
  exact Nat.lt_of_lt_of_eq bounds (Nat.zero_add _)

/-- A lower limit cuts an exploration off and changes nothing before the cut: orderings, reports and
lines are the first ones of the longer exploration, and of its reports exactly those of the
orderings that were run are there. -/
theorem explore_truncated (threads : List Thread) (lower upper : Option UInt64)
    (ordered : budget lower ≤ budget upper) :
    let short := explore threads lower
    let long := explore threads upper
    short.orderings.toList <+: long.orderings.toList ∧
      short.deadlocks.toList <+: long.deadlocks.toList ∧
      short.simulation.log.toList <+: long.simulation.log.toList ∧
      short.deadlocks.toList =
        long.deadlocks.toList.filter fun report => decide (report.ordering < short.explored) := by
  rcases deadlocks_append ordered threads with ⟨more, reports, later⟩
  have kept : (explore threads lower).deadlocks.toList.filter
      (fun report => decide (report.ordering < (explore threads lower).explored)) =
        (explore threads lower).deadlocks.toList := by
    apply List.filter_eq_self.mpr
    intro report member
    exact decide_eq_true (ordering_lt_explored member)
  have dropped : more.filter
      (fun report => decide (report.ordering < (explore threads lower).explored)) = [] := by
    apply List.filter_eq_nil_iff.mpr
    intro report member
    have behind := later report member
    simpa using behind
  refine ⟨orderings_within ordered threads, ⟨more, reports.symm⟩, log_within ordered threads, ?_⟩
  rw [reports, List.filter_append, kept, dropped, List.append_nil]

/-- The first ordering closes no cycle, but leaves what all later ones need to close one. -/
def delayed : List Thread :=
  [{ id := ⟨"A"⟩, actions := [.lock ⟨"B"⟩] },
    { id := ⟨"B"⟩, actions := [.unlock ⟨"B"⟩, .lock ⟨"A"⟩] }, { id := ⟨"C"⟩, actions := [] }]

theorem explore_truncated_delayed :
    budget (some 3) ≤ budget none ∧
      (explore delayed none).deadlocks.toList =
        [⟨1, ⟨"A"⟩, ⟨"B"⟩⟩, ⟨2, ⟨"A"⟩, ⟨"B"⟩⟩, ⟨3, ⟨"A"⟩, ⟨"B"⟩⟩, ⟨4, ⟨"A"⟩, ⟨"B"⟩⟩,
          ⟨5, ⟨"A"⟩, ⟨"B"⟩⟩] ∧
      (explore delayed (some 3)).deadlocks.toList = [⟨1, ⟨"A"⟩, ⟨"B"⟩⟩, ⟨2, ⟨"A"⟩, ⟨"B"⟩⟩] ∧
      (explore delayed (some 3)).orderings.toList <+: (explore delayed none).orderings.toList ∧
      (explore delayed (some 3)).simulation.log.toList <+:
        (explore delayed none).simulation.log.toList := by
  have ordered : budget (some 3) ≤ budget none := by decide
  have long : (explore delayed none).deadlocks.toList =
      [⟨1, ⟨"A"⟩, ⟨"B"⟩⟩, ⟨2, ⟨"A"⟩, ⟨"B"⟩⟩, ⟨3, ⟨"A"⟩, ⟨"B"⟩⟩, ⟨4, ⟨"A"⟩, ⟨"B"⟩⟩,
        ⟨5, ⟨"A"⟩, ⟨"B"⟩⟩] := by decide +kernel
  have ran : (explore delayed (some 3)).explored = 3 := by decide +kernel
  rcases explore_truncated delayed (some 3) none ordered with ⟨orders, _, lines, reports⟩
  rw [long, ran] at reports
  exact ⟨ordered, long, reports, orders, lines⟩

end Exploration

end LockExplorer
