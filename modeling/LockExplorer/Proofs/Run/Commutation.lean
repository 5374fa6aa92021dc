import LockExplorer.Proofs.Exploration.Entries
import LockExplorer.Proofs.Exploration.OneResource
import LockExplorer.Proofs.Run.Composition
import LockExplorer.Proofs.Run.Transfer

/-!
# Runs in either order

Two threads that have no resource in common can run in either order. Each of them finds its own
resources as they were before the other ran, so its locks succeed and fail as before and its actions
are narrated by the same lines, and what both leave behind is one ledger. The checks are another
matter: they look at the whole ledger and may speak up in one order only.
-/

namespace LockExplorer

def Action.resource? : Action → Option Resource
  | .lock resource => some resource
  | .unlock resource => some resource
  | .generic _ => none

def Thread.resources (thread : Thread) : List Resource :=
  thread.actions.filterMap Action.resource?

theorem Thread.mem_resources_iff {thread : Thread} {resource : Resource} :
    resource ∈ thread.resources ↔
      .lock resource ∈ thread.actions ∨ .unlock resource ∈ thread.actions := by
  rw [resources, List.mem_filterMap]
  constructor
  · intro mentioned
    rcases mentioned with ⟨action, member, same⟩
    cases action with
    | lock taken =>
        cases same
        exact Or.inl member
    | unlock freed =>
        cases same
        exact Or.inr member
    | generic label => cases same
  · intro mentioned
    rcases mentioned with locks | unlocks
    · exact ⟨_, locks, rfl⟩
    · exact ⟨_, unlocks, rfl⟩

/-! ## The ledger -/

namespace Simulation

variable {left right : Simulation} {thread first second : Thread} {resource : Resource}

theorem owner_of_run_congr
    (same : left.ledger.ownerOf? resource = right.ledger.ownerOf? resource) :
    (left.run thread).2.2.ledger.ownerOf? resource =
      (right.run thread).2.2.ledger.ownerOf? resource := by
  rw [owner_of_run, owner_of_run, same]

theorem owner_of_run_apart (simulation : Simulation) (apart : resource ∉ thread.resources) :
    (simulation.run thread).2.2.ledger.ownerOf? resource =
      simulation.ledger.ownerOf? resource := by
  rw [Thread.mem_resources_iff, not_or] at apart
  rw [owner_of_run, if_neg apart.2, if_neg apart.1, Option.or_none]

/-- Running a thread before another one makes no difference to a resource that only the other one
deals with. -/
theorem owner_of_run_run_apart (simulation : Simulation) (apart : resource ∉ first.resources) :
    ((simulation.run first).2.2.run second).2.2.ledger.ownerOf? resource =
      ((simulation.run second).2.2.run first).2.2.ledger.ownerOf? resource := by
  rw [owner_of_run_apart (simulation.run second).2.2 apart]
  exact owner_of_run_congr (owner_of_run_apart simulation apart)

theorem ledger_run_run (simulation : Simulation)
    (apart : first.resources.Disjoint second.resources) :
    ((simulation.run first).2.2.run second).2.2.ledger =
      ((simulation.run second).2.2.run first).2.2.ledger := by
  apply Ledger.ext_owner_of
  intro resource
  by_cases mine : resource ∈ first.resources
  · have yours : resource ∉ second.resources := fun shared => apart mine shared
    exact (owner_of_run_run_apart simulation yours).symm
  · exact owner_of_run_run_apart simulation mine

end Simulation

/-! ## The narration -/

def Entry.isFailure : Entry → Bool
  | .failed _ _ => true
  | _ => false

namespace Replay

theorem is_failure_entry (replay : Replay) : replay.entry.isFailure = replay.failed := by
  rcases replay with ⟨before, thread, action⟩
  cases action with
  | lock resource =>
      rw [entry]
      dsimp only
      cases failed ⟨before, thread, .lock resource⟩ <;> rfl
  | unlock resource => rfl
  | generic label => rfl

theorem filter_entries (replay : Replay) :
    replay.entries.filter (fun entry => entry.named?.isNone) = [replay.entry] := by
  have narrates := replay.narrates_entry.named_eq_none
  rw [entries, List.filter_cons_of_pos (by rw [narrates]; rfl)]
  cases replay.found <;> rfl

theorem entry_congr {left right : Simulation} {thread : ThreadId} {action : Action}
    (agree : ∀ resource, action.resource? = some resource →
      left.ledger.AgreeOn resource right.ledger) :
    entry ⟨left, thread, action⟩ = entry ⟨right, thread, action⟩ := by
  cases action with
  | lock resource =>
      have same : left.ledger.ownerOf? resource = right.ledger.ownerOf? resource :=
        agree resource rfl
      rw [entry, entry]
      dsimp only
      rw [failed_eq_of_lock rfl, failed_eq_of_lock rfl, Ledger.isHeld, Ledger.isHeld, same]
  | unlock resource => rfl
  | generic label => rfl

end Replay

namespace Simulation

def block (simulation : Simulation) (thread : Thread) : List Entry :=
  (simulation.replays thread.id thread.actions).flatMap Replay.entries

/-- What a thread's run adds to the log, without the entries of its checks. -/
def narrated (simulation : Simulation) (thread : Thread) : List Entry :=
  (simulation.block thread).filter fun entry => entry.named?.isNone

theorem log_run_eq_block (simulation : Simulation) (thread : Thread) :
    (simulation.run thread).2.2.log.toList =
      simulation.log.toList ++ (simulation.block thread).map Entry.text := by
  rw [log_run, lines_from_eq]
  rfl

theorem narrated_eq (simulation : Simulation) (thread : Thread) :
    simulation.narrated thread =
      (simulation.replays thread.id thread.actions).map Replay.entry := by
  rw [narrated, block, List.filter_flatMap, List.map_eq_flatMap]
  apply List.flatMap_congr
  intro replay _
  exact replay.filter_entries

theorem failed_replay_all (simulation : Simulation) (thread : ThreadId) (actions : List Action)
    (outcome : Outcome) :
    (simulation.replayAll thread actions outcome).1.failed =
      outcome.failed + ((simulation.replays thread actions).map Replay.entry).countP
        Entry.isFailure := by
  induction actions generalizing simulation outcome with
  | nil => rfl
  | cons action later induction =>
      rw [replayAll, induction, replay_eq, replays, List.map_cons, List.countP_cons,
        Replay.is_failure_entry]
      dsimp only
      omega

/-- A run fails to take as many locks as it narrates. -/
theorem failed_run (simulation : Simulation) (thread : Thread) :
    (simulation.run thread).2.1.failed =
      (simulation.narrated thread).countP Entry.isFailure := by
  rw [run_eq, narrated_eq]
  dsimp only
  rw [failed_replay_all, Nat.zero_add]

variable {left right : Simulation} {first second : Thread}

theorem map_entry_replays_congr (thread : ThreadId) {actions : List Action}
    (agree : ∀ resource ∈ actions.filterMap Action.resource?,
      left.ledger.AgreeOn resource right.ledger) :
    (left.replays thread actions).map Replay.entry =
      (right.replays thread actions).map Replay.entry := by
  induction actions generalizing left right with
  | nil => rfl
  | cons action later induction =>
      have first : Replay.entry ⟨left, thread, action⟩ = Replay.entry ⟨right, thread, action⟩ := by
        apply Replay.entry_congr
        intro resource mentioned
        exact agree resource (List.mem_filterMap.mpr ⟨action, List.mem_cons_self, mentioned⟩)
      rw [replays, replays, List.map_cons, List.map_cons, first, induction]
      intro resource member
      rcases List.mem_filterMap.mp member with ⟨other, behind, mentioned⟩
      rw [Replay.ledger_after, Replay.ledger_after]
      apply Ledger.AgreeOn.step
      exact agree resource
        (List.mem_filterMap.mpr ⟨other, List.mem_cons_of_mem _ behind, mentioned⟩)

/-- A thread's actions are narrated alike before and after a run that leaves its resources alone. -/
theorem narrated_run_apart (simulation : Simulation)
    (apart : ∀ resource ∈ second.resources, resource ∉ first.resources) :
    simulation.narrated second = (simulation.run first).2.2.narrated second := by
  rw [narrated_eq, narrated_eq]
  apply map_entry_replays_congr
  intro resource member
  exact (owner_of_run_apart simulation (apart resource member)).symm

/-- Two threads without a common resource, run one after the other on any ledger, leave the same
ledger in either order, and each of them fails to take as many locks and is narrated in the same way
whether it runs first or second. The narration is what a run adds to the log without what its checks
add: every action adds its entry, and the check after it one more if it names a thread. -/
theorem runs_commute (simulation : Simulation)
    (apart : first.resources.Disjoint second.resources) :
    let firstEarly := simulation.run first
    let secondLate := firstEarly.2.2.run second
    let secondEarly := simulation.run second
    let firstLate := secondEarly.2.2.run first
    secondLate.2.2.ledger = firstLate.2.2.ledger ∧
      firstEarly.2.1.failed = firstLate.2.1.failed ∧
      secondEarly.2.1.failed = secondLate.2.1.failed ∧
      simulation.narrated first = secondEarly.2.2.narrated first ∧
      simulation.narrated second = firstEarly.2.2.narrated second ∧
      ∀ (before : Simulation) (thread : Thread),
        let replays := before.replays thread.id thread.actions
        (before.run thread).2.2.log.toList = before.log.toList ++ (replays.flatMap fun replay =>
            replay.entry :: (replay.found.map Entry.deadlock).toList).map Entry.text ∧
          before.narrated thread = replays.map Replay.entry ∧
          ∀ replay ∈ replays,
            replay.performed.2.log.toList = replay.before.log.toList ++ [replay.entry.text] ∧
            replay.after.log.toList =
              replay.performed.2.log.toList ++ (replay.found.map Line.deadlock).toList := by
  intro firstEarly secondLate secondEarly firstLate
  have firstAlike : simulation.narrated first = secondEarly.2.2.narrated first :=
    narrated_run_apart simulation fun _ mine yours => apart mine yours
  have secondAlike : simulation.narrated second = firstEarly.2.2.narrated second :=
    narrated_run_apart simulation fun _ yours mine => apart mine yours
  refine ⟨ledger_run_run simulation apart, ?_, ?_, firstAlike, secondAlike, ?_⟩
  · rw [failed_run, failed_run, firstAlike]
  · rw [failed_run, failed_run, secondAlike]
  · intro before thread replays
    refine ⟨log_run_eq_block before thread, narrated_eq before thread, ?_⟩
    intro replay _
    exact replay.log_after

def halfway : Simulation :=
  { empty with ledger := Ledger.ofList [(⟨"A"⟩, ⟨"B"⟩)] }

/-- Closes the cycle of `A` and `B` with its first action and then fails to take its own name. -/
def closing : Thread :=
  ⟨⟨"A"⟩, [.lock ⟨"B"⟩, .lock ⟨"A"⟩], 0⟩

/-- Has nothing to do with the cycle, and fails to take a lock for the second time. -/
def bystander : Thread :=
  ⟨⟨"T"⟩, [.lock ⟨"R"⟩, .lock ⟨"R"⟩, .unlock ⟨"S"⟩], 1⟩

/-- The bystander's checks speak up only after the cycle has been closed. -/
theorem runs_commute_bystander :
    closing.resources.Disjoint bystander.resources ∧
      ((halfway.run closing).2.2.run bystander).2.2.ledger =
        ((halfway.run bystander).2.2.run closing).2.2.ledger ∧
      (halfway.run bystander).2.1.failed =
        ((halfway.run closing).2.2.run bystander).2.1.failed ∧
      halfway.narrated bystander = (halfway.run closing).2.2.narrated bystander ∧
      halfway.block bystander ≠ (halfway.run closing).2.2.block bystander := by
  have outside : ∀ resource ∈ closing.resources, resource ∉ bystander.resources := by decide
  have apart : closing.resources.Disjoint bystander.resources := fun _ mine => outside _ mine
  rcases runs_commute halfway apart with ⟨ledger, _, failed, _, narrated, _⟩
  exact ⟨apart, ledger, failed, narrated, by decide +kernel⟩

end Simulation

end LockExplorer
