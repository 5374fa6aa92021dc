import LockExplorer.Proofs.Exploration.ThreadRuns
import LockExplorer.Proofs.Run.Alone

/-!
# Threads that give back what they take

Where every lock is followed by a release within the same thread, each run leaves the ledger as
empty as it found it. A run then neither sees what ran before it nor shows to what runs after it:
its lines and its report are those of the thread alone, in every ordering.
-/

namespace LockExplorer

/-- Every lock is followed by a release of the same resource. -/
def Thread.Balanced (thread : Thread) : Prop :=
  ∀ earlier resource later, thread.actions = earlier ++ .lock resource :: later →
    .unlock resource ∈ later

def Action.releasesAll : List Action → Bool
  | [] => true
  | .lock resource :: later => decide (.unlock resource ∈ later) && releasesAll later
  | _ :: later => releasesAll later

theorem Action.releases_all_iff {actions : List Action} :
    releasesAll actions = true ↔
      ∀ earlier resource later, actions = earlier ++ .lock resource :: later →
        .unlock resource ∈ later := by
  induction actions with
  | nil => simp [releasesAll]
  | cons action rest induction =>
      have first : releasesAll (action :: rest) = true ↔
          (∀ resource, action = .lock resource → .unlock resource ∈ rest) ∧
            releasesAll rest = true := by
        cases action <;> simp [releasesAll]
      rw [first, induction]
      constructor
      · rintro ⟨released, inside⟩ earlier resource later parts
        cases earlier with
        | nil =>
            obtain ⟨locks, rfl⟩ := List.cons.inj parts
            exact released resource locks
        | cons _ earlier => exact inside earlier resource later (List.cons.inj parts).2
      · intro released
        constructor
        · rintro resource rfl
          exact released [] resource rest rfl
        · rintro earlier resource later rfl
          exact released (action :: earlier) resource later rfl

instance (thread : Thread) : Decidable thread.Balanced :=
  decidable_of_iff (Action.releasesAll thread.actions = true) Action.releases_all_iff

theorem Thread.Balanced.alone_eq_empty {thread : Thread} (balanced : thread.Balanced) :
    Ledger.alone thread.id thread.actions = Ledger.empty := by
  apply Ledger.eq_empty_of_free
  intro resource
  rw [Option.eq_none_iff_forall_ne_some]
  intro owner held
  obtain ⟨_, earlier, later, parts, kept⟩ := Ledger.owner_of_alone.mp held
  exact kept (balanced earlier resource later parts)

/-- The report of a thread that locks the resource which is spelled like it; none for others. -/
def Thread.selfReport? (ordering : Nat) (thread : Thread) : Option Report :=
  if .lock thread.id.asResource ∈ thread.actions then some ⟨ordering, thread.id, thread.id⟩
  else none

/-! ## A run that starts from nothing -/

namespace ThreadRun

variable {run : ThreadRun}

theorem lines_of_nothing_held (nothing : run.before.ledger = Ledger.empty) :
    run.lines =
      Line.running run.thread.id :: (Simulation.empty.run run.thread).2.2.log.toList := by
  rw [lines, nothing, Simulation.log_run]
  rfl

theorem report_of_nothing_held (nothing : run.before.ledger = Ledger.empty) :
    run.report? = run.thread.selfReport? run.ordering := by
  have announced : run.announced.ledger = Ledger.empty := nothing
  rw [report?, deadlock_outcome, replays, Simulation.find_some_found_alone announced,
    Thread.selfReport?]
  split <;> rfl

theorem failed_iff_of_nothing_held (nothing : run.before.ledger = Ledger.empty)
    {earlier later : List Action} {resource : Resource}
    (parts : run.thread.actions = earlier ++ .lock resource :: later) :
    ∃ replay, run.replays[earlier.length]? = some replay ∧ replay.action = .lock resource ∧
      (replay.failed = true ↔ Unreleased resource earlier) := by
  obtain ⟨replay, position, action, before⟩ :=
    Simulation.get_elem_replays run.announced run.thread.id earlier (.lock resource) later
  refine ⟨replay, ?_, action, ?_⟩
  · rw [replays, parts]
    exact position
  · rw [Replay.failed_eq_of_lock action, before]
    change (run.before.ledger.replayed _).isHeld resource = true ↔ _
    rw [nothing]
    exact Ledger.is_held_alone

end ThreadRun

/-! ## All orderings -/

namespace Exploration

variable {threads : List Thread} {limit : Option UInt64}

theorem nothing_held_of_balanced (balanced : ∀ thread ∈ threads, thread.Balanced)
    (limit : Option UInt64) :
    (∀ run ∈ threadRuns threads limit,
        run.before.ledger = Ledger.empty ∧ run.after.ledger = Ledger.empty) ∧
      (explore threads limit).simulation.ledger = Ledger.empty := by
  apply (linked_thread_runs threads limit).keeps (fun ledger => ledger = Ledger.empty) rfl
  intro run member nothing
  rw [ThreadRun.ledger_after, nothing]
  exact (balanced run.thread (thread_of_mem_thread_runs member)).alone_eq_empty

theorem log_run_orderings {sequence : List (List Thread)} {exploration : Exploration}
    {linesOf : Thread → List String}
    (same : ∀ run ∈ exploration.runsThrough sequence, run.lines = linesOf run.thread) :
    (sequence.foldl runOrdering exploration).simulation.log.toList =
      exploration.simulation.log.toList ++ sequence.flatMap fun ordering =>
        Line.exploring (ordering.map Thread.id) :: ordering.flatMap linesOf := by
  induction sequence generalizing exploration with
  | nil => simp
  | cons ordering later induction =>
      rw [runsThrough, List.forall_mem_append] at same
      have inside : ((exploration.announce ordering).runsOf ordering).flatMap ThreadRun.lines =
          ordering.flatMap linesOf := by
        conv_rhs => rw [← threads_runs_of ordering (exploration.announce ordering)]
        rw [List.flatMap_map]
        exact List.flatMap_congr same.1
      have first : (exploration.runOrdering ordering).simulation.log.toList =
          exploration.simulation.log.toList ++
            Line.exploring (ordering.map Thread.id) :: ordering.flatMap linesOf := by
        have lines := log_run_threads ordering (exploration.announce ordering)
        rw [inside] at lines
        rw [run_ordering_eq, lines, announce, Simulation.narrate, Log.to_list_append,
          List.append_assoc]
        rfl
      rw [List.foldl_cons, induction same.2, first, List.flatMap_cons, List.append_assoc]

/-- Balanced threads do not influence each other, whatever the limit. Every run starts and ends with
nothing held; the log consists, ordering by ordering, of the lines of each thread alone; a lock
fails exactly when its own thread has not released an earlier one; and a run is reported exactly
when its thread locks the resource that is spelled like it, with that thread as the one involved. -/
theorem balanced_runs_independent (threads : List Thread) (limit : Option UInt64)
    (balanced : ∀ thread ∈ threads, thread.Balanced) :
    (∀ run ∈ threadRuns threads limit,
        run.before.ledger = Ledger.empty ∧ run.after.ledger = Ledger.empty ∧
        ∀ earlier resource later, run.thread.actions = earlier ++ .lock resource :: later →
          ∃ replay, run.replays[earlier.length]? = some replay ∧
            replay.action = .lock resource ∧
            (replay.failed = true ↔ Unreleased resource earlier)) ∧
      (explore threads limit).simulation.ledger = Ledger.empty ∧
      (explore threads limit).simulation.log.toList =
        ((orderingsWithin threads limit).flatMap fun ordering =>
          Line.exploring (ordering.map Thread.id) :: ordering.flatMap fun thread =>
            Line.running thread.id :: (Simulation.empty.run thread).2.2.log.toList) ∧
      (explore threads limit).deadlocks.toList =
        (orderingsWithin threads limit).zipIdx.flatMap fun entry =>
          entry.1.filterMap (Thread.selfReport? entry.2) := by
  obtain ⟨nothing, final⟩ := nothing_held_of_balanced balanced limit
  refine ⟨?_, final, ?_, ?_⟩
  · intro run member
    obtain ⟨before, after⟩ := nothing run member
    refine ⟨before, after, ?_⟩
    intro earlier resource later parts
    exact ThreadRun.failed_iff_of_nothing_held before parts
  · rw [(explore_eq_run_orderings threads limit).2.2]
    apply log_run_orderings
    intro run member
    exact ThreadRun.lines_of_nothing_held (nothing run member).1
  · rw [deadlocks_explore]
    apply filter_map_thread_runs Thread.selfReport?
    intro run member
    exact ThreadRun.report_of_nothing_held (nothing run member).1

/-- The second thread is named like what it locks, and locks it twice. -/
def returning : List Thread :=
  [{ id := ⟨"T"⟩, actions := [.lock ⟨"R"⟩, .generic "1", .unlock ⟨"R"⟩] },
    { id := ⟨"A"⟩, actions := [.lock ⟨"A"⟩, .lock ⟨"A"⟩, .unlock ⟨"A"⟩] }]

theorem balanced_runs_independent_returning :
    (∀ thread ∈ returning, thread.Balanced) ∧
      (∃ run ∈ threadRuns returning none, run.after.ledger = Ledger.empty ∧
        ∃ replay, run.replays[1]? = some replay ∧ replay.failed = true) ∧
      (explore returning none).simulation.ledger = Ledger.empty ∧
      (explore returning none).deadlocks.toList =
        [⟨0, ⟨"A"⟩, ⟨"A"⟩⟩, ⟨1, ⟨"A"⟩, ⟨"A"⟩⟩] := by
  have balanced : ∀ thread ∈ returning, thread.Balanced := by decide
  obtain ⟨runs, ledger, _, deadlocks⟩ := balanced_runs_independent returning none balanced
  have listed : ⟨⟨"A"⟩, [.lock ⟨"A"⟩, .lock ⟨"A"⟩, .unlock ⟨"A"⟩], 0⟩ ∈
      (threadRuns returning none).map ThreadRun.thread := by decide +kernel
  obtain ⟨run, member, thread⟩ := List.mem_map.mp listed
  obtain ⟨_, after, fails⟩ := runs run member
  obtain ⟨replay, position, _, failed⟩ :=
    fails [.lock ⟨"A"⟩] ⟨"A"⟩ [.unlock ⟨"A"⟩] (by rw [thread]; rfl)
  refine ⟨balanced, ⟨run, member, after, replay, position, ?_⟩, ledger, ?_⟩
  · exact failed.mpr ⟨[], [], rfl, by simp⟩
  · rw [deadlocks]
    decide +kernel

end Exploration

end LockExplorer
