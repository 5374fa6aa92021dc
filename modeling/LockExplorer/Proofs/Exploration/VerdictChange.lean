import LockExplorer.Proofs.Exploration.ThreadRuns

/-!
# What makes the verdict change

The check after an action can find a first cycle only when the action takes a resource, and can find
the last cycle gone only when it gives one back; the resource is spelled like a thread of the cycle.
Nothing has been found before the first report, so that report names a thread of the very cycle
which its running thread has closed.
-/

namespace LockExplorer

namespace Replay

variable {replay : Replay}

theorem lock_of_first_cycle {named : ThreadId} (acyclic : replay.before.ledger.Acyclic)
    (found : replay.found = some named) :
    ∃ resource members, replay.action = .lock resource ∧ replay.failed = false ∧
      replay.after.ledger.OnlyCycle members ∧ resource.asThread ∈ members ∧
      replay.thread ∈ members ∧ named ∈ members := by
  have cycle := on_cycle_of_found found
  rw [ledger_after] at cycle ⊢
  obtain ⟨resource, members, locks, free, only, spelled, running⟩ :=
    Ledger.lock_of_cycle_appears acyclic cycle
  refine ⟨resource, members, locks, ?_, only, spelled, running, only.mem_of_on_cycle cycle⟩
  rw [failed_eq_of_lock locks, Ledger.isHeld, free, Option.isSome_none]

theorem unlock_of_last_cycle (cyclic : ¬ replay.before.ledger.Acyclic)
    (missed : replay.found = none) :
    ∃ resource owner members, replay.action = .unlock resource ∧
      replay.before.ledger.ownerOf? resource = some owner ∧
      replay.before.ledger.OnlyCycle members ∧ resource.asThread ∈ members := by
  have acyclic := found_eq_none_iff.mp missed
  rw [ledger_after] at acyclic
  obtain ⟨thread, cycle⟩ := Classical.not_forall_not.mp cyclic
  exact Ledger.unlock_of_cycle_disappears cycle acyclic

end Replay

namespace Exploration

variable {threads : List Thread} {limit : Option UInt64} {earlier later : List Replay}
  {replay : Replay}

theorem ledger_before_replay (parts : replays threads limit = earlier ++ replay :: later) :
    replay.before.ledger =
      (earlier.getLast?.map fun previous => previous.after.ledger).getD Ledger.empty := by
  have linked := linked_replays threads limit
  rw [parts] at linked
  obtain ⟨middle, first, found, _⟩ := linked.split
  rw [found]
  exact first.finish_eq

theorem acyclic_before_replay (parts : replays threads limit = earlier ++ replay :: later)
    (missed : ∀ other ∈ earlier, other.found = none) : replay.before.ledger.Acyclic := by
  rw [ledger_before_replay parts]
  cases last : earlier.getLast? with
  | none => exact Ledger.acyclic_empty
  | some previous =>
      exact Replay.found_eq_none_iff.mp (missed previous (List.mem_of_getLast? last))

theorem first_report {report : Report}
    (first : (explore threads limit).deadlocks[0]? = some report) :
    ∃ earlier replay later, replays threads limit = earlier ++ replay :: later ∧
      (∀ other ∈ earlier, other.found = none) ∧ replay.thread = report.running ∧
      replay.found = some report.involved := by
  rw [← Array.getElem?_toList, deadlocks_explore, ← List.head?_eq_getElem?,
    List.head?_filterMap] at first
  -- The first run with a report comes after silent runs, and its first find after silent checks.
  obtain ⟨front, run, back, parts, reported, silent⟩ := List.findSome?_eq_some_iff.mp first
  obtain ⟨_, running, earlier, replay, later, inside, found, missed⟩ :=
    ThreadRun.report_eq_some_iff.mp reported
  refine ⟨front.flatMap ThreadRun.replays ++ earlier, replay,
    later ++ back.flatMap ThreadRun.replays, ?_, ?_, ?_, found⟩
  · rw [replays, parts, List.flatMap_append, List.flatMap_cons, inside]
    simp only [List.append_assoc, List.cons_append]
  · intro other member
    rcases List.mem_append.mp member with before | within
    · obtain ⟨otherRun, listed, belongs⟩ := List.mem_flatMap.mp before
      exact ThreadRun.report_eq_none_iff.mp (silent otherRun listed) other belongs
    · exact missed other within
  · have member : replay ∈ run.replays := by
      rw [inside]
      simp
    rw [running, ThreadRun.thread_of_mem_replays member]

/-- All replayed actions in one sequence, the first of which finds the empty ledger and each later
one what the action before it left: a verdict that names a thread where there was no cycle before
is due to a successful lock that closes the only cycle, and a verdict that finds nothing where there
was a cycle before is due to a release that opens the only cycle. -/
theorem cause_of_verdict_change (threads : List Thread) (limit : Option UInt64) :
    (replays threads limit).map (fun replay => (replay.thread, replay.action)) =
        (orderingsWithin threads limit).flatMap historyOf ∧
      (∀ earlier replay later, replays threads limit = earlier ++ replay :: later →
        replay.before.ledger =
          (earlier.getLast?.map fun previous => previous.after.ledger).getD Ledger.empty) ∧
      (∀ replay ∈ replays threads limit, ∀ named,
        replay.before.ledger.Acyclic → replay.found = some named →
          ∃ resource members, replay.action = .lock resource ∧ replay.failed = false ∧
            replay.after.ledger.OnlyCycle members ∧ resource.asThread ∈ members ∧
            replay.thread ∈ members ∧ named ∈ members) ∧
      (∀ replay ∈ replays threads limit,
        ¬ replay.before.ledger.Acyclic → replay.found = none →
          ∃ resource owner members, replay.action = .unlock resource ∧
            replay.before.ledger.ownerOf? resource = some owner ∧
            replay.before.ledger.OnlyCycle members ∧ resource.asThread ∈ members) ∧
      ∀ report, (explore threads limit).deadlocks[0]? = some report →
        ∃ earlier replay later members, replays threads limit = earlier ++ replay :: later ∧
          (∀ other ∈ earlier, other.found = none) ∧
          replay.thread = report.running ∧ replay.found = some report.involved ∧
          replay.after.ledger.IsCycle members ∧
          report.running ∈ members ∧ report.involved ∈ members := by
  refine ⟨entries_replays threads limit, ?_, ?_, ?_, ?_⟩
  · intro earlier replay later parts
    exact ledger_before_replay parts
  · intro replay _ named acyclic found
    exact Replay.lock_of_first_cycle acyclic found
  · intro replay _ cyclic missed
    exact Replay.unlock_of_last_cycle cyclic missed
  · intro report first
    obtain ⟨earlier, replay, later, parts, missed, running, found⟩ := first_report first
    have acyclic := acyclic_before_replay parts missed
    obtain ⟨_, members, _, _, only, _, inside, named⟩ := Replay.lock_of_first_cycle acyclic found
    exact ⟨earlier, replay, later, members, parts, missed, running, found,
      (only members).mpr rfl, running ▸ inside, named⟩

/-- The second thread closes a cycle with the first one and opens it again. -/
def crossing : List Thread :=
  [{ id := ⟨"A"⟩, actions := [.lock ⟨"B"⟩] },
    { id := ⟨"B"⟩, actions := [.lock ⟨"A"⟩, .unlock ⟨"A"⟩] }]

theorem cause_of_verdict_change_crossing :
    (∃ replay ∈ replays crossing (some 1),
      replay.before.ledger.Acyclic ∧ replay.found = some ⟨"B"⟩ ∧
        ∃ resource members, replay.action = .lock resource ∧ replay.failed = false ∧
          replay.after.ledger.OnlyCycle members ∧ resource.asThread ∈ members ∧
          replay.thread ∈ members ∧ ⟨"B"⟩ ∈ members) ∧
      (∃ replay ∈ replays crossing (some 1),
        ¬ replay.before.ledger.Acyclic ∧ replay.found = none ∧
          ∃ resource owner members, replay.action = .unlock resource ∧
            replay.before.ledger.ownerOf? resource = some owner ∧
            replay.before.ledger.OnlyCycle members ∧ resource.asThread ∈ members) ∧
      (explore crossing (some 1)).deadlocks[0]? = some ⟨0, ⟨"B"⟩, ⟨"B"⟩⟩ ∧
        ∃ earlier replay later members, replays crossing (some 1) = earlier ++ replay :: later ∧
          (∀ other ∈ earlier, other.found = none) ∧
          replay.thread = ⟨"B"⟩ ∧ replay.found = some ⟨"B"⟩ ∧
          replay.after.ledger.IsCycle members ∧ ⟨"B"⟩ ∈ members ∧ ⟨"B"⟩ ∈ members := by
  obtain ⟨_, _, appears, disappears, first⟩ := cause_of_verdict_change crossing (some 1)
  have verdicts : (replays crossing (some 1)).map (fun replay =>
      (replay.before.ledger.cycle?, replay.found)) =
        [(none, none), (none, some ⟨"B"⟩), (some ⟨"B"⟩, none)] := by decide +kernel
  have closes : (none, some ⟨"B"⟩) ∈ (replays crossing (some 1)).map fun replay =>
      (replay.before.ledger.cycle?, replay.found) := by simp [verdicts]
  have opens : (some ⟨"B"⟩, none) ∈ (replays crossing (some 1)).map fun replay =>
      (replay.before.ledger.cycle?, replay.found) := by simp [verdicts]
  have reported : (explore crossing (some 1)).deadlocks[0]? = some ⟨0, ⟨"B"⟩, ⟨"B"⟩⟩ := by
    decide +kernel
  obtain ⟨closing, closingMember, closingVerdicts⟩ := List.mem_map.mp closes
  obtain ⟨opening, openingMember, openingVerdicts⟩ := List.mem_map.mp opens
  obtain ⟨before, found⟩ := Prod.mk.inj closingVerdicts
  obtain ⟨cyclic, missed⟩ := Prod.mk.inj openingVerdicts
  have acyclic : closing.before.ledger.Acyclic := Ledger.cycle_eq_none_iff.mp before
  have notAcyclic : ¬ opening.before.ledger.Acyclic := by
    rw [← Ledger.cycle_eq_none_iff, cyclic]
    simp
  refine ⟨⟨closing, closingMember, acyclic, found, ?_⟩,
    ⟨opening, openingMember, notAcyclic, missed, ?_⟩, reported, first _ reported⟩
  · exact appears closing closingMember _ acyclic found
  · exact disappears opening openingMember notAcyclic missed

end Exploration

end LockExplorer
