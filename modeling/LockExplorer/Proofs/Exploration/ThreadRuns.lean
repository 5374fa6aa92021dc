import LockExplorer.Proofs.Exploration.HeldAtEnd
import LockExplorer.Proofs.Run.Steps

/-!
# The single runs of an exploration

An exploration is taken apart into the runs of its threads, and these into the actions they replay,
each with what was shared before it. Every run and every action finds the ledger that the one before
it left, and the reports are those of the runs, in order.
-/

namespace LockExplorer

/-! ## One run -/

/-- A thread's run within an exploration: the number of the ordering, the thread, and what was
shared before the run was announced. -/
structure ThreadRun where
  ordering : Nat
  thread : Thread
  before : Simulation

namespace ThreadRun

def announced (run : ThreadRun) : Simulation :=
  run.before.narrate (Line.running run.thread.id)

def outcome (run : ThreadRun) : Outcome :=
  (run.announced.run run.thread).2.1

def after (run : ThreadRun) : Simulation :=
  (run.announced.run run.thread).2.2

def replays (run : ThreadRun) : List Replay :=
  run.announced.replays run.thread.id run.thread.actions

def report? (run : ThreadRun) : Option Report :=
  run.outcome.deadlock.map (Report.mk run.ordering run.thread.id)

def lines (run : ThreadRun) : List String :=
  Line.running run.thread.id :: run.before.ledger.linesFrom run.thread.id run.thread.actions

theorem ledger_after (run : ThreadRun) :
    run.after.ledger = run.before.ledger.replayed run.thread.history :=
  Simulation.ledger_run run.announced run.thread

theorem log_after (run : ThreadRun) :
    run.after.log.toList = run.before.log.toList ++ run.lines := by
  rw [after, Simulation.log_run, announced, Simulation.narrate, Log.to_list_append,
    List.append_assoc]
  rfl

theorem deadlock_outcome (run : ThreadRun) :
    run.outcome.deadlock = run.replays.findSome? Replay.found := by
  rw [outcome, Simulation.run_eq, Simulation.deadlock_replay_all]
  exact Option.none_or

theorem linked_replays (run : ThreadRun) :
    Linked Replay.before Replay.after run.before.ledger run.replays run.after.ledger := by
  rw [after, Simulation.run_eq]
  exact Simulation.linked_replays run.announced run.thread.id run.thread.actions {}

theorem thread_of_mem_replays {run : ThreadRun} {replay : Replay}
    (member : replay ∈ run.replays) : replay.thread = run.thread.id :=
  Simulation.thread_of_mem_replays member

theorem action_of_mem_replays {run : ThreadRun} {replay : Replay}
    (member : replay ∈ run.replays) : replay.action ∈ run.thread.actions :=
  Simulation.action_of_mem_replays member

theorem entries_replays (run : ThreadRun) :
    run.replays.map (fun replay => (replay.thread, replay.action)) = run.thread.history := by
  have actions : run.replays.map Replay.action = run.thread.actions :=
    Simulation.map_action_replays run.announced run.thread.id run.thread.actions
  rw [Thread.history, ← actions, List.map_map]
  apply List.map_congr_left
  intro replay member
  rw [Function.comp_apply, thread_of_mem_replays member]

theorem report_eq_none_iff {run : ThreadRun} :
    run.report? = none ↔ ∀ replay ∈ run.replays, replay.found = none := by
  rw [report?, Option.map_eq_none_iff, deadlock_outcome, List.findSome?_eq_none_iff]

theorem report_eq_some_iff {run : ThreadRun} {report : Report} :
    run.report? = some report ↔
      report.ordering = run.ordering ∧ report.running = run.thread.id ∧
        ∃ earlier replay later, run.replays = earlier ++ replay :: later ∧
          replay.found = some report.involved ∧ ∀ other ∈ earlier, other.found = none := by
  rw [report?, deadlock_outcome, Option.map_eq_some_iff, ← List.findSome?_eq_some_iff]
  constructor
  · rintro ⟨involved, found, rfl⟩
    exact ⟨rfl, rfl, found⟩
  · rintro ⟨sameOrdering, sameThread, found⟩
    refine ⟨report.involved, found, ?_⟩
    rw [← sameOrdering, ← sameThread]

theorem filter_report (run : ThreadRun) (index : Nat) :
    run.report?.filter (fun report => decide (report.ordering = index)) =
      if run.ordering = index then run.report? else none := by
  cases reported : run.report? with
  | none => simp
  | some report =>
      have same := (report_eq_some_iff.mp reported).1
      rw [Option.filter_some, same]
      simp only [decide_eq_true_eq]

def verdicts (run : ThreadRun) : List (Option ThreadId) :=
  run.before.ledger.verdictsFrom run.thread.id run.thread.actions

theorem report_eq (run : ThreadRun) :
    run.report? = (run.verdicts.findSome? id).map (Report.mk run.ordering run.thread.id) := by
  have found : run.replays.map Replay.found = run.verdicts :=
    Simulation.map_found_replays run.announced run.thread.id run.thread.actions
  rw [report?, deadlock_outcome, ← found, List.findSome?_map]
  rfl

theorem length_lines (run : ThreadRun) :
    run.lines.length = run.thread.actions.length + run.verdicts.countP Option.isSome + 1 := by
  rw [lines, List.length_cons, Ledger.length_lines_from]
  rfl

end ThreadRun

namespace Exploration

/-! ## The runs of one ordering -/

def upNext (exploration : Exploration) (thread : Thread) : ThreadRun :=
  ⟨exploration.explored, thread, exploration.simulation⟩

theorem explored_run_thread (exploration : Exploration) (thread : Thread) :
    (exploration.runThread thread).explored = exploration.explored := by
  rw [run_thread_eq]

theorem simulation_run_thread (exploration : Exploration) (thread : Thread) :
    (exploration.runThread thread).simulation = (exploration.upNext thread).after := by
  rw [run_thread_eq, ThreadRun.after, Simulation.run_eq]
  rfl

theorem deadlocks_run_thread (exploration : Exploration) (thread : Thread) :
    (exploration.runThread thread).deadlocks.toList =
      exploration.deadlocks.toList ++ (exploration.upNext thread).report?.toList := by
  rw [run_thread_eq, ThreadRun.report?, ThreadRun.outcome, Simulation.run_eq]
  simp only [Array.toList_append, Option.toList_toArray]
  rfl

def runsOf (exploration : Exploration) : List Thread → List ThreadRun
  | [] => []
  | thread :: later =>
      exploration.upNext thread :: (exploration.runThread thread).runsOf later

theorem linked_runs_of (ordering : List Thread) (exploration : Exploration) :
    Linked ThreadRun.before ThreadRun.after exploration.simulation.ledger
      (exploration.runsOf ordering) (ordering.foldl runThread exploration).simulation.ledger := by
  induction ordering generalizing exploration with
  | nil => rfl
  | cons thread later induction =>
      refine ⟨rfl, ?_⟩
      rw [← simulation_run_thread]
      exact induction (exploration.runThread thread)

theorem deadlocks_run_threads (ordering : List Thread) (exploration : Exploration) :
    (ordering.foldl runThread exploration).deadlocks.toList = exploration.deadlocks.toList ++
      (exploration.runsOf ordering).filterMap ThreadRun.report? := by
  induction ordering generalizing exploration with
  | nil => simp [runsOf]
  | cons thread later induction =>
      rw [List.foldl_cons, induction, deadlocks_run_thread, runsOf, List.filterMap_cons,
        List.append_assoc]
      cases (exploration.upNext thread).report? <;> rfl

theorem log_run_threads (ordering : List Thread) (exploration : Exploration) :
    (ordering.foldl runThread exploration).simulation.log.toList =
      exploration.simulation.log.toList ++
        (exploration.runsOf ordering).flatMap ThreadRun.lines := by
  induction ordering generalizing exploration with
  | nil => simp [runsOf]
  | cons thread later induction =>
      rw [List.foldl_cons, induction, simulation_run_thread, ThreadRun.log_after, runsOf,
        List.flatMap_cons, List.append_assoc]
      rfl

theorem skeleton_runs_of (ordering : List Thread) (exploration : Exploration) :
    (exploration.runsOf ordering).map (fun run => (run.ordering, run.thread)) =
      ordering.map (Prod.mk exploration.explored) := by
  induction ordering generalizing exploration with
  | nil => rfl
  | cons thread later induction =>
      rw [runsOf, List.map_cons, induction, explored_run_thread, List.map_cons]
      rfl

theorem ordering_of_mem_runs_of {ordering : List Thread} {exploration : Exploration}
    {run : ThreadRun} (member : run ∈ exploration.runsOf ordering) :
    run.ordering = exploration.explored := by
  have listed : (run.ordering, run.thread) ∈
      (exploration.runsOf ordering).map fun run => (run.ordering, run.thread) :=
    List.mem_map_of_mem member
  rw [skeleton_runs_of] at listed
  obtain ⟨_, _, same⟩ := List.mem_map.mp listed
  exact (Prod.mk.inj same).1.symm

theorem threads_runs_of (ordering : List Thread) (exploration : Exploration) :
    (exploration.runsOf ordering).map ThreadRun.thread = ordering := by
  have threads := congrArg (List.map Prod.snd) (skeleton_runs_of ordering exploration)
  simpa only [List.map_map, Function.comp_def, List.map_id'] using threads

theorem ids_runs_of (ordering : List Thread) (exploration : Exploration) :
    (exploration.runsOf ordering).map (fun run => run.thread.id) = ordering.map Thread.id := by
  conv_rhs => rw [← threads_runs_of ordering exploration, List.map_map]
  rfl

/-! ## The runs of all orderings -/

/-- The exploration when the first thread of an ordering is about to run. -/
def announce (exploration : Exploration) (ordering : List Thread) : Exploration :=
  let order := ordering.map Thread.id
  let event := TraceEvent.orderingStarted exploration.explored order
    exploration.simulation.ledger.size
  { exploration with
    simulation := (exploration.simulation.record event).narrate (Line.exploring order) }

theorem run_ordering_eq (exploration : Exploration) (ordering : List Thread) :
    exploration.runOrdering ordering =
      let ran := ordering.foldl runThread (exploration.announce ordering)
      { ran with
        explored := ran.explored + 1
        orderings := ran.orderings.push (ordering.map Thread.id) } := rfl

def runsThrough (exploration : Exploration) : List (List Thread) → List ThreadRun
  | [] => []
  | ordering :: later =>
      (exploration.announce ordering).runsOf ordering ++
        (exploration.runOrdering ordering).runsThrough later

theorem linked_runs_through (sequence : List (List Thread)) (exploration : Exploration) :
    Linked ThreadRun.before ThreadRun.after exploration.simulation.ledger
      (exploration.runsThrough sequence)
      (sequence.foldl runOrdering exploration).simulation.ledger := by
  induction sequence generalizing exploration with
  | nil => rfl
  | cons ordering later induction =>
      have first := linked_runs_of ordering (exploration.announce ordering)
      exact first.append (induction (exploration.runOrdering ordering))

theorem deadlocks_run_orderings (sequence : List (List Thread)) (exploration : Exploration) :
    (sequence.foldl runOrdering exploration).deadlocks.toList = exploration.deadlocks.toList ++
      (exploration.runsThrough sequence).filterMap ThreadRun.report? := by
  induction sequence generalizing exploration with
  | nil => simp [runsThrough]
  | cons ordering later induction =>
      have first : (exploration.runOrdering ordering).deadlocks.toList =
          exploration.deadlocks.toList ++
            ((exploration.announce ordering).runsOf ordering).filterMap ThreadRun.report? :=
        deadlocks_run_threads ordering (exploration.announce ordering)
      rw [List.foldl_cons, induction, first, runsThrough, List.filterMap_append,
        List.append_assoc]

theorem skeleton_runs_through (sequence : List (List Thread)) (exploration : Exploration) :
    (exploration.runsThrough sequence).map (fun run => (run.ordering, run.thread)) =
      (sequence.zipIdx exploration.explored).flatMap fun entry =>
        entry.1.map (Prod.mk entry.2) := by
  induction sequence generalizing exploration with
  | nil => rfl
  | cons ordering later induction =>
      rw [runsThrough, List.map_append, skeleton_runs_of, induction,
        (run_ordering_spec exploration ordering).1, List.zipIdx_cons, List.flatMap_cons]
      rfl

theorem threads_runs_through (sequence : List (List Thread)) (exploration : Exploration) :
    (exploration.runsThrough sequence).map ThreadRun.thread = sequence.flatten := by
  induction sequence generalizing exploration with
  | nil => rfl
  | cons ordering later induction =>
      rw [runsThrough, List.map_append, threads_runs_of, induction, List.flatten_cons]

/-! ## The exploration as a whole -/

variable {threads : List Thread} {limit : Option UInt64}

def started (threads : List Thread) (limit : Option UInt64) : Exploration :=
  let total := (Orderings.ofList threads).total?
  { empty with simulation := Simulation.empty.record (.started threads.length total limit) }

def threadRuns (threads : List Thread) (limit : Option UInt64) : List ThreadRun :=
  (started threads limit).runsThrough (orderingsWithin threads limit)

def replays (threads : List Thread) (limit : Option UInt64) : List Replay :=
  (threadRuns threads limit).flatMap ThreadRun.replays

/-- Apart from its trace, an exploration is what its orderings make of it. -/
theorem explore_eq_run_orderings (threads : List Thread) (limit : Option UInt64) :
    let ran := (orderingsWithin threads limit).foldl runOrdering (started threads limit)
    (explore threads limit).deadlocks = ran.deadlocks ∧
      (explore threads limit).simulation.ledger = ran.simulation.ledger ∧
      (explore threads limit).simulation.log = ran.simulation.log := by
  let within := (started threads limit).runWithin (Orderings.ofList threads) (budget limit)
  have whole : within = _ := run_within_eq (Orderings.yields_of_list threads) _ _
  change within.deadlocks = _ ∧ within.simulation.ledger = _ ∧ within.simulation.log = _
  rw [whole]
  dsimp only
  split <;> exact ⟨rfl, rfl, rfl⟩

theorem linked_thread_runs (threads : List Thread) (limit : Option UInt64) :
    Linked ThreadRun.before ThreadRun.after Ledger.empty (threadRuns threads limit)
      (explore threads limit).simulation.ledger := by
  rw [(explore_eq_run_orderings threads limit).2.1]
  exact linked_runs_through (orderingsWithin threads limit) (started threads limit)

theorem linked_replays (threads : List Thread) (limit : Option UInt64) :
    Linked Replay.before Replay.after Ledger.empty (replays threads limit)
      (explore threads limit).simulation.ledger :=
  (linked_thread_runs threads limit).flat_map ThreadRun.linked_replays

theorem deadlocks_explore (threads : List Thread) (limit : Option UInt64) :
    (explore threads limit).deadlocks.toList =
      (threadRuns threads limit).filterMap ThreadRun.report? := by
  rw [(explore_eq_run_orderings threads limit).1]
  exact deadlocks_run_orderings (orderingsWithin threads limit) (started threads limit)

theorem skeleton_thread_runs (threads : List Thread) (limit : Option UInt64) :
    (threadRuns threads limit).map (fun run => (run.ordering, run.thread)) =
      (orderingsWithin threads limit).zipIdx.flatMap fun entry => entry.1.map (Prod.mk entry.2) :=
  skeleton_runs_through (orderingsWithin threads limit) (started threads limit)

/-- What is collected from runs when it depends on the number of the ordering and on the thread. -/
theorem filter_map_thread_runs {β : Type} {collect : ThreadRun → Option β}
    (collected : Nat → Thread → Option β)
    (same : ∀ run ∈ threadRuns threads limit, collect run = collected run.ordering run.thread) :
    (threadRuns threads limit).filterMap collect =
      (orderingsWithin threads limit).zipIdx.flatMap fun entry =>
        entry.1.filterMap (collected entry.2) := by
  rw [List.filterMap_congr same]
  have skeleton := congrArg (List.filterMap fun entry => collected entry.1 entry.2)
    (skeleton_thread_runs threads limit)
  rw [List.filterMap_map, List.filterMap_flatMap] at skeleton
  simp only [List.filterMap_map, Function.comp_def] at skeleton
  exact skeleton

theorem filter_map_block {α β : Type} (collected : α → Option β) {blocks : List (List α)}
    {index : Nat} {block : List α} (position : blocks[index]? = some block) (start : Nat) :
    ((blocks.zipIdx start).flatMap fun entry => entry.1.filterMap fun item =>
      if entry.2 = start + index then collected item else none) = block.filterMap collected := by
  induction blocks generalizing start index with
  | nil => cases position
  | cons first rest induction =>
      rw [List.zipIdx_cons, List.flatMap_cons]
      cases index with
      | zero =>
          have here : first = block := Option.some.inj position
          have others : ∀ entry ∈ rest.zipIdx (start + 1), (entry.1.filterMap fun item =>
              if entry.2 = start + 0 then collected item else none) = [] := by
            intro entry member
            have behind := List.le_snd_of_mem_zipIdx member
            have different : entry.2 ≠ start := by omega
            simp [different]
          rw [List.flatMap_eq_nil_iff.mpr others, here, List.append_nil]
          simp
      | succ index =>
          have later := induction position (start + 1)
          rw [Nat.add_assoc, Nat.add_comm 1] at later
          rw [later]
          simp

theorem filter_map_thread_runs_of_ordering {β : Type} {collect : ThreadRun → Option β}
    (collected : Thread → Option β) {index : Nat} {ordering : List Thread}
    (position : (orderingsWithin threads limit)[index]? = some ordering)
    (same : ∀ run ∈ threadRuns threads limit,
      collect run = if run.ordering = index then collected run.thread else none) :
    (threadRuns threads limit).filterMap collect = ordering.filterMap collected := by
  have block := filter_map_block collected position 0
  rw [Nat.zero_add] at block
  rw [← block]
  exact filter_map_thread_runs
    (fun number thread => if number = index then collected thread else none) same

theorem thread_of_mem_thread_runs {run : ThreadRun} (member : run ∈ threadRuns threads limit) :
    run.thread ∈ threads := by
  have listed : run.thread ∈ (threadRuns threads limit).map ThreadRun.thread :=
    List.mem_map_of_mem member
  rw [threadRuns, threads_runs_through] at listed
  obtain ⟨ordering, allowed, inside⟩ := List.mem_flatten.mp listed
  exact (perm_of_mem_orderings_within allowed).subset inside

theorem entries_replays (threads : List Thread) (limit : Option UInt64) :
    (replays threads limit).map (fun replay => (replay.thread, replay.action)) =
      (orderingsWithin threads limit).flatMap historyOf := by
  calc
    _ = (threadRuns threads limit).flatMap fun run => run.thread.history := by
      simp only [replays, List.map_flatMap, ThreadRun.entries_replays]
    _ = ((threadRuns threads limit).map ThreadRun.thread).flatMap Thread.history := by
      rw [List.flatMap_map]
    _ = _ := by
      rw [threadRuns, threads_runs_through, List.flatten_eq_flatMap, List.flatMap_assoc]
      rfl

theorem on_cycle_of_mem_deadlocks {report : Report}
    (member : report ∈ (explore threads limit).deadlocks) :
    ∃ replay ∈ replays threads limit, replay.after.ledger.OnCycle report.involved := by
  rw [← Array.mem_toList_iff, deadlocks_explore] at member
  obtain ⟨run, runMember, reported⟩ := List.mem_filterMap.mp member
  obtain ⟨_, _, earlier, replay, later, parts, found, _⟩ :=
    ThreadRun.report_eq_some_iff.mp reported
  have inside : replay ∈ run.replays := by
    rw [parts]
    simp
  exact ⟨replay, List.mem_flatMap.mpr ⟨run, runMember, inside⟩, Replay.on_cycle_of_found found⟩

/-- Each thread takes what is named like the other. -/
def entangled : List Thread :=
  [{ id := ⟨"A"⟩, actions := [.lock ⟨"B"⟩] }, { id := ⟨"B"⟩, actions := [.lock ⟨"A"⟩] }]

example : (replays entangled (some 1)).map Replay.found = [none, some ⟨"B"⟩] := by decide +kernel

end Exploration

end LockExplorer
