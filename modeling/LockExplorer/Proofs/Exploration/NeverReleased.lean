import LockExplorer.Proofs.Exploration.ThreadRuns

/-!
# Threads that never give anything back

Without releases the first ordering decides everything. It leaves each resource with the first
thread of the input that locks it, and from then on every lock fails and nothing changes. Each later
check gives the verdict on that ledger, and because the ledger has only grown, a cycle that is there
at the end was found as soon as it was closed, within the first ordering.
-/

namespace LockExplorer

/-- The report of a thread whose actions all find and leave this ledger. -/
def Thread.settledReport? (ledger : Ledger) (ordering : Nat) (thread : Thread) : Option Report :=
  if thread.actions = [] then none else ledger.cycle?.map (Report.mk ordering thread.id)

namespace Exploration

variable {threads : List Thread} {limit : Option UInt64}

/-- What the first ordering leaves. -/
def winners (threads : List Thread) : Ledger :=
  Ledger.empty.replayed (historyOf threads)

theorem thread_runs_eq_append {later : List (List Thread)}
    (parts : orderingsWithin threads limit = threads :: later) :
    threadRuns threads limit = ((started threads limit).announce threads).runsOf threads ++
      ((started threads limit).runOrdering threads).runsThrough later := by
  rw [threadRuns, parts]
  rfl

section

variable (keeps : ∀ thread ∈ threads, ∀ resource, Action.unlock resource ∉ thread.actions)

include keeps

theorem owner_of_winners (resource : Resource) :
    (winners threads).ownerOf? resource =
      (threads.find? fun thread => decide (Action.lock resource ∈ thread.actions)).map
        Thread.id := by
  have kept : ¬ ∃ entry ∈ historyOf threads, entry.2 = .unlock resource := by
    rw [mem_history_of_iff]
    rintro ⟨thread, listed, unlocks⟩
    exact keeps thread listed resource unlocks
  rw [winners, Ledger.owner_of_replayed, if_neg kept, Ledger.owner_of_empty, Option.none_or,
    first_locker_history_of]

theorem held_winners {thread : Thread} {resource : Resource} (listed : thread ∈ threads)
    (locks : .lock resource ∈ thread.actions) :
    ∃ owner, (winners threads).ownerOf? resource = some owner := by
  rw [owner_of_winners keeps]
  cases first : threads.find? fun thread => decide (Action.lock resource ∈ thread.actions) with
  | none =>
      rw [List.find?_eq_none] at first
      exact absurd locks (by simpa using first thread listed)
  | some winner => exact ⟨winner.id, rfl⟩

theorem step_winners {thread : Thread} {action : Action} (listed : thread ∈ threads)
    (performs : action ∈ thread.actions) (performer : ThreadId) :
    (winners threads).step performer action = winners threads := by
  cases action with
  | generic label => rfl
  | unlock resource => exact absurd performs (keeps thread listed resource)
  | lock resource =>
      obtain ⟨owner, held⟩ := held_winners keeps listed performs
      exact Ledger.step_lock_of_held held performer

theorem run_keeps_winners {run : ThreadRun} (listed : run.thread ∈ threads)
    (before : run.before.ledger = winners threads) :
    (∀ replay ∈ run.replays,
        replay.before.ledger = winners threads ∧ replay.after.ledger = winners threads) ∧
      run.after.ledger = winners threads := by
  apply run.linked_replays.keeps (fun ledger => ledger = winners threads) before
  intro replay member same
  rw [Replay.ledger_after, same]
  exact step_winners keeps listed (ThreadRun.action_of_mem_replays member) replay.thread

theorem within_final {replay : Replay} (member : replay ∈ replays threads limit) :
    replay.after.ledger.Within (explore threads limit).simulation.ledger := by
  obtain ⟨earlier, later, parts⟩ := List.append_of_mem member
  have linked := linked_replays threads limit
  rw [parts] at linked
  obtain ⟨middle, _, _, rest⟩ := linked.split
  -- The invariant of the rest of the exploration: what this action left is still held.
  refine (rest.keeps replay.after.ledger.Within (Ledger.Within.refl _) ?_).2
  intro other inside within
  have otherMember : other ∈ replays threads limit := by
    rw [parts]
    simp [inside]
  obtain ⟨run, runMember, belongs⟩ := List.mem_flatMap.mp otherMember
  apply within.trans
  rw [Replay.ledger_after]
  apply Ledger.within_step
  intro resource unlocks
  have performs := ThreadRun.action_of_mem_replays belongs
  rw [unlocks] at performs
  exact keeps run.thread (thread_of_mem_thread_runs runMember) resource performs

theorem settled_after_first {later : List (List Thread)}
    (parts : orderingsWithin threads limit = threads :: later) :
    (∀ run ∈ threadRuns threads limit, 1 ≤ run.ordering →
        run.before.ledger = winners threads) ∧
      (explore threads limit).simulation.ledger = winners threads := by
  let first := (started threads limit).runOrdering threads
  have begins : first.simulation.ledger = winners threads :=
    (run_ordering_spec (started threads limit) threads).2.2
  have kept : ∀ run ∈ first.runsThrough later, run.before.ledger = winners threads →
      run.after.ledger = winners threads := by
    intro run inside same
    have member : run ∈ threadRuns threads limit := by
      rw [thread_runs_eq_append parts]
      exact List.mem_append_right _ inside
    exact (run_keeps_winners keeps (thread_of_mem_thread_runs member) same).2
  obtain ⟨settled, final⟩ := (linked_runs_through later first).keeps
    (fun ledger => ledger = winners threads) begins kept
  constructor
  · intro run member positive
    rw [thread_runs_eq_append parts] at member
    rcases List.mem_append.mp member with inFirst | inside
    · have zero : run.ordering = 0 := ordering_of_mem_runs_of inFirst
      omega
    · exact (settled run inside).1
  · rw [(explore_eq_run_orderings threads limit).2.1, parts]
    exact final

theorem report_of_settled {run : ThreadRun} (listed : run.thread ∈ threads)
    (before : run.before.ledger = winners threads) :
    run.report? = run.thread.settledReport? (winners threads) run.ordering := by
  have verdicts : ∀ replay ∈ run.replays, replay.found = (winners threads).cycle? := by
    intro replay member
    rw [Replay.found_eq, ((run_keeps_winners keeps listed before).1 replay member).2]
  have length : run.replays.length = run.thread.actions.length :=
    Simulation.length_replays run.announced run.thread.id run.thread.actions
  rw [ThreadRun.report?, ThreadRun.deadlock_outcome, Thread.settledReport?]
  cases replayed : run.replays with
  | nil =>
      rw [replayed] at length
      rw [if_pos (List.length_eq_zero_iff.mp length.symm)]
      rfl
  | cons first rest =>
      have acts : run.thread.actions ≠ [] := by
        intro nothing
        rw [replayed, nothing] at length
        cases length
      rw [replayed, List.forall_mem_cons] at verdicts
      rw [if_neg acts, List.findSome?_cons, verdicts.1]
      cases verdict : (winners threads).cycle? with
      | some named => rfl
      | none =>
          rw [verdict] at verdicts
          rw [List.findSome?_eq_none_iff.mpr verdicts.2]

theorem reports_of_later_ordering {later : List (List Thread)}
    (parts : orderingsWithin threads limit = threads :: later) {index : Nat}
    {ordering : List Thread} (positive : 1 ≤ index)
    (position : (orderingsWithin threads limit)[index]? = some ordering) :
    ((explore threads limit).deadlocks.toList.filter fun report =>
        decide (report.ordering = index)) =
      ordering.filterMap (Thread.settledReport? (winners threads) index) := by
  rw [deadlocks_explore, List.filter_filterMap]
  apply filter_map_thread_runs_of_ordering _ position
  intro run member
  rw [ThreadRun.filter_report]
  split
  · next here =>
      have before := (settled_after_first keeps parts).1 run member (by omega)
      rw [report_of_settled keeps (thread_of_mem_thread_runs member) before, here]
  · rfl

end

/-- A cycle in what the first ordering leaves has been reported by then. -/
theorem reported_in_first_ordering {later : List (List Thread)} {named : ThreadId}
    (parts : orderingsWithin threads limit = threads :: later)
    (cycle : (winners threads).OnCycle named) :
    ∃ report ∈ (explore threads limit).deadlocks, report.ordering = 0 := by
  let announced := (started threads limit).announce threads
  have linked := (linked_runs_of threads announced).flat_map ThreadRun.linked_replays
  have ends : (threads.foldl runThread announced).simulation.ledger = winners threads :=
    (run_threads_spec threads announced).2.2
  rw [ends] at linked
  -- If no run of the first ordering were reported, no check would ever have found a cycle.
  apply Classical.byContradiction
  intro silent
  refine (linked.keeps Ledger.Acyclic Ledger.acyclic_empty ?_).2 named cycle
  intro replay member _
  obtain ⟨run, inFirst, inside⟩ := List.mem_flatMap.mp member
  apply Replay.found_eq_none_iff.mp
  cases reported : run.report? with
  | none => exact ThreadRun.report_eq_none_iff.mp reported replay inside
  | some report =>
      have runMember : run ∈ threadRuns threads limit := by
        rw [thread_runs_eq_append parts]
        exact List.mem_append_left _ inFirst
      have listed : report ∈ (explore threads limit).deadlocks := by
        rw [← Array.mem_toList_iff, deadlocks_explore]
        exact List.mem_filterMap.mpr ⟨run, runMember, reported⟩
      have zero : report.ordering = 0 :=
        (ThreadRun.report_eq_some_iff.mp reported).1.trans (ordering_of_mem_runs_of inFirst)
      exact absurd ⟨report, listed, zero⟩ silent

/-- Without releases, and when at least one ordering is run, one ledger decides everything: it gives
each resource to the first thread of the input that locks it. It is the ledger at the end and all
through the later orderings, where every lock fails. There are reports exactly when it has a cycle,
and then the first ordering has one already; a later ordering has a report for each of its threads
that has actions, with the verdict on this ledger. -/
theorem never_released_decided_first (threads : List Thread) (limit : Option UInt64)
    (keeps : ∀ thread ∈ threads, ∀ resource, Action.unlock resource ∉ thread.actions)
    (ran : 0 < (explore threads limit).explored) :
    ∃ decided : Ledger,
      (∀ resource, decided.ownerOf? resource =
        (threads.find? fun thread => decide (Action.lock resource ∈ thread.actions)).map
          Thread.id) ∧
      (explore threads limit).simulation.ledger = decided ∧
      (∀ run ∈ threadRuns threads limit, 1 ≤ run.ordering →
        run.before.ledger = decided ∧ run.after.ledger = decided ∧
        ∀ replay ∈ run.replays,
          replay.before.ledger = decided ∧ replay.after.ledger = decided ∧
          ∀ resource, replay.action = .lock resource → replay.failed = true) ∧
      ((explore threads limit).deadlocks ≠ #[] ↔ ∃ thread, decided.OnCycle thread) ∧
      ((∃ thread, decided.OnCycle thread) →
        ∃ report ∈ (explore threads limit).deadlocks, report.ordering = 0) ∧
      ∀ index ordering, 1 ≤ index → (orderingsWithin threads limit)[index]? = some ordering →
        ((explore threads limit).deadlocks.toList.filter fun report =>
            decide (report.ordering = index)) =
          ordering.filterMap (Thread.settledReport? decided index) := by
  rw [(explore_spec threads limit).1] at ran
  obtain ⟨later, parts⟩ := orderings_within_eq_cons (List.length_pos_iff.mp ran)
  obtain ⟨settled, final⟩ := settled_after_first keeps parts
  refine ⟨winners threads, owner_of_winners keeps, final, ?_, ?_, ?_, ?_⟩
  · intro run member positive
    have listed := thread_of_mem_thread_runs member
    have before := settled run member positive
    obtain ⟨inside, after⟩ := run_keeps_winners keeps listed before
    refine ⟨before, after, ?_⟩
    intro replay replayMember
    obtain ⟨found, left⟩ := inside replay replayMember
    refine ⟨found, left, ?_⟩
    intro resource locks
    have performs := ThreadRun.action_of_mem_replays replayMember
    rw [locks] at performs
    obtain ⟨owner, held⟩ := held_winners keeps listed performs
    rw [Replay.failed_eq_of_lock locks, found, Ledger.isHeld, held, Option.isSome_some]
  · constructor
    · intro reports
      obtain ⟨report, member⟩ := Array.exists_mem_of_ne_empty _ reports
      obtain ⟨replay, replayMember, cycle⟩ := on_cycle_of_mem_deadlocks member
      have within := within_final keeps replayMember
      rw [final] at within
      exact ⟨report.involved, within.on_cycle cycle⟩
    · rintro ⟨thread, cycle⟩ silent
      obtain ⟨report, member, _⟩ := reported_in_first_ordering parts cycle
      rw [silent] at member
      simp at member
  · rintro ⟨thread, cycle⟩
    exact reported_in_first_ordering parts cycle
  · intro index ordering positive position
    exact reports_of_later_ordering keeps parts positive position

/-- Two threads take what is named like the other, and a third one does nothing. -/
def hoarding : List Thread :=
  [{ id := ⟨"A"⟩, actions := [.lock ⟨"B"⟩, .lock ⟨"R"⟩] },
    { id := ⟨"B"⟩, actions := [.lock ⟨"A"⟩, .lock ⟨"R"⟩] }, { id := ⟨"C"⟩, actions := [] }]

theorem never_released_decided_first_hoarding :
    (∀ thread ∈ hoarding, ∀ resource, Action.unlock resource ∉ thread.actions) ∧
      0 < (explore hoarding none).explored ∧
      ∃ decided : Ledger, decided.ownerOf? ⟨"R"⟩ = some ⟨"A"⟩ ∧
        (explore hoarding none).simulation.ledger = decided ∧
        (explore hoarding none).deadlocks ≠ #[] ∧
        ((explore hoarding none).deadlocks.toList.filter fun report =>
          decide (report.ordering = 1)) = [⟨1, ⟨"A"⟩, ⟨"B"⟩⟩, ⟨1, ⟨"B"⟩, ⟨"B"⟩⟩] := by
  have keeps : ∀ thread ∈ hoarding, ∀ resource, Action.unlock resource ∉ thread.actions := by
    simp [hoarding]
  have ran : 0 < (explore hoarding none).explored := by decide +kernel
  have cycle : (explore hoarding none).simulation.ledger.cycle? = some ⟨"B"⟩ := by decide +kernel
  have second : (orderingsWithin hoarding none)[1]? = some
      [⟨⟨"A"⟩, [.lock ⟨"B"⟩, .lock ⟨"R"⟩], 0⟩, ⟨⟨"C"⟩, [], 0⟩,
        ⟨⟨"B"⟩, [.lock ⟨"A"⟩, .lock ⟨"R"⟩], 0⟩] := by decide +kernel
  obtain ⟨decided, owner, final, _, reports, _, later⟩ :=
    never_released_decided_first hoarding none keeps ran
  rw [final] at cycle
  refine ⟨keeps, ran, decided, ?_, final, ?_, ?_⟩
  · rw [owner]
    decide
  · exact reports.mpr ⟨_, Ledger.on_cycle_of_cycle cycle⟩
  · have report : Thread.settledReport? decided 1 = fun thread =>
        if thread.actions = [] then none else some ⟨1, thread.id, ⟨"B"⟩⟩ := by
      funext thread
      rw [Thread.settledReport?, cycle]
      rfl
    rw [later 1 _ (Nat.le_refl 1) second, report]
    decide

end Exploration

end LockExplorer
