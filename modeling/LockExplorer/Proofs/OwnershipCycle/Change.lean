import LockExplorer.Proofs.OwnershipCycle.Exactness
import Mathlib.Data.Set.Basic

/-!
# How one action changes the cycles

An action changes the step of at most one thread, the one that is spelled like the resource which is
taken or given back. A cycle that does not pass this thread is left alone. A cycle that comes or
goes therefore passes it, and two cycles that pass the same thread are one.
-/

namespace LockExplorer

def Resource.asThread (resource : Resource) : ThreadId :=
  ⟨resource.name⟩

theorem ThreadId.as_resource_eq_iff {thread : ThreadId} {resource : Resource} :
    thread.asResource = resource ↔ thread = resource.asThread := by
  cases thread
  cases resource
  simp [ThreadId.asResource, Resource.asThread]

namespace Ledger

variable {ledger left right : Ledger} {thread reached pivot : ThreadId} {resource : Resource}

def Acyclic (ledger : Ledger) : Prop :=
  ∀ thread, ¬ ledger.OnCycle thread

theorem acyclic_empty : empty.Acyclic := by
  intro thread cycle
  have owner := cycle.mem_owners
  simp [owners] at owner

/-- The threads that the steps from a thread pass, the thread itself included. -/
def passed (ledger : Ledger) (thread : ThreadId) : Set ThreadId :=
  {other | ∃ steps, ledger.stepsFrom? thread steps = some other}

/-- These threads are all the threads of one cycle. -/
def IsCycle (ledger : Ledger) (members : Set ThreadId) : Prop :=
  ∃ thread, ledger.OnCycle thread ∧ members = ledger.passed thread

def OnlyCycle (ledger : Ledger) (members : Set ThreadId) : Prop :=
  ∀ others, ledger.IsCycle others ↔ others = members

/-! ## The threads of a cycle -/

theorem self_mem_passed (ledger : Ledger) (thread : ThreadId) : thread ∈ ledger.passed thread :=
  ⟨0, rfl⟩

theorem successor_mem_passed (step : ledger.successor? thread = some reached) :
    reached ∈ ledger.passed thread :=
  ⟨1, (steps_from_one ledger thread).trans step⟩

theorem passed_subset (member : reached ∈ ledger.passed thread) :
    ledger.passed reached ⊆ ledger.passed thread := by
  obtain ⟨first, leads⟩ := member
  rintro other ⟨more, onward⟩
  exact ⟨first + more, (steps_from_trans leads more).trans onward⟩

theorem OnCycle.of_passed (cycle : ledger.OnCycle thread)
    (member : reached ∈ ledger.passed thread) :
    ledger.OnCycle reached := by
  obtain ⟨period, positive, returns⟩ := cycle
  obtain ⟨steps, leads⟩ := member
  refine ⟨period, positive, ?_⟩
  rw [← steps_from_trans leads, Nat.add_comm, steps_from_trans returns, leads]

theorem OnCycle.passed_eq (cycle : ledger.OnCycle thread)
    (member : reached ∈ ledger.passed thread) :
    ledger.passed reached = ledger.passed thread := by
  apply Set.Subset.antisymm
  · exact passed_subset member
  · -- The thread is passed again by the steps from `reached`, as it lies on a cycle with it.
    apply passed_subset
    obtain ⟨steps, leads⟩ := member
    exact cycle.returns leads

theorem only_cycle_of_common (cycle : ledger.OnCycle thread)
    (common : ∀ other, ledger.OnCycle other → pivot ∈ ledger.passed other) :
    ledger.OnlyCycle (ledger.passed pivot) := by
  intro others
  constructor
  · rintro ⟨other, otherCycle, rfl⟩
    exact (otherCycle.passed_eq (common other otherCycle)).symm
  · intro same
    exact ⟨pivot, cycle.of_passed (common thread cycle), same⟩

/-! ## Ledgers that differ little -/

def Within (left right : Ledger) : Prop :=
  ∀ resource owner, left.ownerOf? resource = some owner → right.ownerOf? resource = some owner

theorem Within.refl (ledger : Ledger) : ledger.Within ledger :=
  fun _ _ held => held

theorem Within.trans {middle : Ledger} (first : left.Within middle) (second : middle.Within right) :
    left.Within right :=
  fun resource owner held => second resource owner (first resource owner held)

theorem Within.steps_from (within : left.Within right) {steps : Nat}
    (leads : left.stepsFrom? thread steps = some reached) :
    right.stepsFrom? thread steps = some reached := by
  induction steps generalizing reached with
  | zero => exact leads
  | succ steps induction =>
      obtain ⟨previous, before, step⟩ := Option.bind_eq_some_iff.mp leads
      rw [Ledger.stepsFrom?, induction before, Option.bind_some]
      exact within previous.asResource reached step

theorem Within.on_cycle (within : left.Within right) (cycle : left.OnCycle thread) :
    right.OnCycle thread := by
  obtain ⟨period, positive, returns⟩ := cycle
  exact ⟨period, positive, within.steps_from returns⟩

theorem OnCycle.of_same_steps (cycle : left.OnCycle thread)
    (same : ∀ other ∈ left.passed thread, right.successor? other = left.successor? other) :
    right.OnCycle thread := by
  obtain ⟨period, positive, returns⟩ := cycle
  refine ⟨period, positive, ?_⟩
  have agree : ∀ steps, right.stepsFrom? thread steps = left.stepsFrom? thread steps := by
    intro steps
    induction steps with
    | zero => rfl
    | succ steps induction =>
        rw [stepsFrom?, stepsFrom?, induction]
        apply Option.bind_congr
        intro other leads
        exact same other ⟨steps, leads⟩
  rw [agree, returns]

/-- A cycle of one ledger that another one lacks passes the only thread whose step differs. -/
theorem OnCycle.mem_passed_of_lost (cycle : left.OnCycle thread) (lost : ¬ right.OnCycle thread)
    (same : ∀ other, other ≠ pivot → right.successor? other = left.successor? other) :
    pivot ∈ left.passed thread := by
  apply Classical.byContradiction
  intro avoided
  apply lost
  apply cycle.of_same_steps
  intro other member
  apply same
  rintro rfl
  exact avoided member

theorem successor_insert (ledger : Ledger) (resource : Resource) (thread other : ThreadId) :
    (ledger.insert resource thread).successor? other =
      if other = resource.asThread then some thread else ledger.successor? other := by
  simp only [successor?, owner_of_insert, ThreadId.as_resource_eq_iff]

theorem successor_erase (ledger : Ledger) (resource : Resource) (other : ThreadId) :
    (ledger.erase resource).successor? other =
      if other = resource.asThread then none else ledger.successor? other := by
  simp only [successor?, owner_of_erase, ThreadId.as_resource_eq_iff]

/-! ## One action -/

theorem step_lock_of_free (free : ledger.ownerOf? resource = none) (thread : ThreadId) :
    ledger.step thread (.lock resource) = ledger.insert resource thread := by
  rw [step, acquire_of_free free, Option.getD_some]

theorem step_lock_of_held {owner : ThreadId} (held : ledger.ownerOf? resource = some owner)
    (thread : ThreadId) : ledger.step thread (.lock resource) = ledger := by
  rw [step, acquire_of_held held, Option.getD_none]

theorem within_step {action : Action} (keeps : ∀ resource, action ≠ .unlock resource) :
    ledger.Within (ledger.step thread action) := by
  intro resource owner held
  rw [owner_of_step, if_neg (keeps resource), held, Option.some_or]
  split <;> rfl

theorem step_unlock_within (ledger : Ledger) (thread : ThreadId) (resource : Resource) :
    (ledger.step thread (.unlock resource)).Within ledger := by
  intro other owner held
  rw [step, owner_of_erase] at held
  split at held
  · cases held
  · exact held

/-- An action after which there is a first cycle takes a free resource, and the cycle passes the
thread that is spelled like it and hence the thread that takes it. -/
theorem lock_of_cycle_appears {action : Action} (acyclic : ledger.Acyclic)
    (cycle : (ledger.step thread action).OnCycle reached) :
    ∃ resource members, action = .lock resource ∧ ledger.ownerOf? resource = none ∧
      (ledger.step thread action).OnlyCycle members ∧
      resource.asThread ∈ members ∧ thread ∈ members := by
  cases action with
  | generic label => exact absurd cycle (acyclic reached)
  | unlock resource =>
      have before := (step_unlock_within ledger thread resource).on_cycle cycle
      exact absurd before (acyclic reached)
  | lock resource =>
      cases held : ledger.ownerOf? resource with
      | some owner =>
          rw [step_lock_of_held held] at cycle
          exact absurd cycle (acyclic reached)
      | none =>
          rw [step_lock_of_free held] at cycle ⊢
          have same : ∀ other, other ≠ resource.asThread →
              ledger.successor? other = (ledger.insert resource thread).successor? other := by
            intro other different
            rw [successor_insert, if_neg different]
          -- Only the new step can have closed a cycle, so all cycles pass where it begins.
          have only := only_cycle_of_common cycle fun other otherCycle =>
            otherCycle.mem_passed_of_lost (acyclic other) same
          refine ⟨resource, _, rfl, held, only, self_mem_passed _ _, ?_⟩
          apply successor_mem_passed
          rw [successor_insert, if_pos rfl]

/-- An action after which no cycle is left gives back a held resource, and the only cycle there was
passes the thread that is spelled like it. -/
theorem unlock_of_cycle_disappears {action : Action} (cycle : ledger.OnCycle reached)
    (acyclic : (ledger.step thread action).Acyclic) :
    ∃ resource owner members, action = .unlock resource ∧ ledger.ownerOf? resource = some owner ∧
      ledger.OnlyCycle members ∧ resource.asThread ∈ members := by
  cases action with
  | generic label => exact absurd cycle (acyclic reached)
  | lock resource =>
      have grows : ledger.Within (ledger.step thread (.lock resource)) :=
        within_step fun _ contrary => by cases contrary
      exact absurd (grows.on_cycle cycle) (acyclic reached)
  | unlock resource =>
      have same : ∀ other, other ≠ resource.asThread →
          (ledger.step thread (.unlock resource)).successor? other = ledger.successor? other := by
        intro other different
        rw [step, successor_erase, if_neg different]
      have common : ∀ other, ledger.OnCycle other → resource.asThread ∈ ledger.passed other :=
        fun other otherCycle => otherCycle.mem_passed_of_lost (acyclic other) same
      have passes := cycle.of_passed (common reached cycle)
      cases held : ledger.ownerOf? resource with
      | none =>
          -- A thread on a cycle has a step, so the resource that is spelled like it is held.
          exact absurd passes.never_stops (not_never_stops_of_no_successor held)
      | some owner =>
          exact ⟨resource, owner, _, rfl, held, only_cycle_of_common cycle common,
            self_mem_passed _ _⟩

/-! ## What the check says -/

theorem cycle_eq_none_iff : ledger.cycle? = none ↔ ledger.Acyclic := by
  rcases ledger.cycle_spec with ⟨missed, acyclic⟩ | ⟨named, found, isNamed⟩
  · exact ⟨fun _ => acyclic, fun _ => missed⟩
  · constructor
    · intro missed
      rw [missed] at found
      cases found
    · intro acyclic
      exact absurd isNamed.on_cycle (acyclic named)

theorem on_cycle_of_cycle (found : ledger.cycle? = some thread) : ledger.OnCycle thread := by
  rcases ledger.cycle_spec with ⟨missed, _⟩ | ⟨named, foundNamed, isNamed⟩
  · rw [missed] at found
    cases found
  · rw [found] at foundNamed
    rw [Option.some.inj foundNamed]
    exact isNamed.on_cycle

theorem OnlyCycle.mem_of_on_cycle {members : Set ThreadId} (only : ledger.OnlyCycle members)
    (cycle : ledger.OnCycle thread) : thread ∈ members := by
  rw [← (only (ledger.passed thread)).mp ⟨thread, cycle, rfl⟩]
  exact self_mem_passed ledger thread

end Ledger

end LockExplorer
