import LockExplorer.Proofs.Ledger.Ownership

/-!
# Chains of owners

A thread steps to the holder of the resource that is spelled like it, and stops where nobody holds
that resource. Steps are determined by the thread alone, so a chain that comes back to a thread goes
round from there for ever, and all threads of such a round are reached again and again.
-/

namespace LockExplorer

namespace Ledger

/-- The thread that so many steps lead to, unless they stop before. -/
def stepsFrom? (ledger : Ledger) (thread : ThreadId) : Nat → Option ThreadId
  | 0 => some thread
  | steps + 1 => (ledger.stepsFrom? thread steps).bind ledger.successor?

/-- One or more steps lead back to the thread. -/
def OnCycle (ledger : Ledger) (thread : ThreadId) : Prop :=
  ∃ steps, 0 < steps ∧ ledger.stepsFrom? thread steps = some thread

def NeverStops (ledger : Ledger) (thread : ThreadId) : Prop :=
  ∀ steps, ledger.stepsFrom? thread steps ≠ none

/-- The first thread on a cycle that the steps from a thread meet, the thread itself included. -/
def EntersAt (ledger : Ledger) (start entry : ThreadId) : Prop :=
  ∃ steps, ledger.stepsFrom? start steps = some entry ∧ ledger.OnCycle entry ∧
    ∀ earlier < steps, ∀ thread, ledger.stepsFrom? start earlier = some thread →
      ¬ ledger.OnCycle thread

variable {ledger : Ledger} {thread next start : ThreadId}

theorem steps_from_add (ledger : Ledger) (thread : ThreadId) (first more : Nat) :
    ledger.stepsFrom? thread (first + more) =
      (ledger.stepsFrom? thread first).bind fun reached => ledger.stepsFrom? reached more := by
  induction more with
  | zero => simp [stepsFrom?]
  | succ more induction =>
      rw [← Nat.add_assoc, stepsFrom?, induction, Option.bind_assoc]
      rfl

theorem steps_from_trans {first : Nat} {reached : ThreadId}
    (leads : ledger.stepsFrom? thread first = some reached) (more : Nat) :
    ledger.stepsFrom? thread (first + more) = ledger.stepsFrom? reached more := by
  rw [steps_from_add, leads, Option.bind_some]

theorem steps_from_one (ledger : Ledger) (thread : ThreadId) :
    ledger.stepsFrom? thread 1 = ledger.successor? thread := by
  simp [stepsFrom?]

theorem steps_from_succ (step : ledger.successor? thread = some next) (steps : Nat) :
    ledger.stepsFrom? thread (steps + 1) = ledger.stepsFrom? next steps := by
  rw [Nat.add_comm]
  exact steps_from_trans ((steps_from_one ledger thread).trans step) steps

theorem mem_owners_of_successor (step : ledger.successor? thread = some next) :
    next ∈ ledger.owners :=
  List.mem_map.mpr ⟨_, mem_entries_of_owner_of step, rfl⟩

/-! ## Stopping -/

theorem not_never_stops_of_no_successor (stuck : ledger.successor? thread = none) :
    ¬ ledger.NeverStops thread := by
  intro never
  apply never 1
  rw [steps_from_one, stuck]

theorem never_stops_iff_successor (step : ledger.successor? thread = some next) :
    ledger.NeverStops thread ↔ ledger.NeverStops next := by
  constructor
  · intro never steps
    rw [← steps_from_succ step]
    exact never (steps + 1)
  · intro never steps
    cases steps with
    | zero => simp [stepsFrom?]
    | succ steps =>
        rw [steps_from_succ step]
        exact never steps

theorem never_stops_of_reached {steps : Nat} {reached : ThreadId}
    (leads : ledger.stepsFrom? thread steps = some reached) (never : ledger.NeverStops reached) :
    ledger.NeverStops thread := by
  induction steps generalizing reached with
  | zero =>
      have same : thread = reached := Option.some.inj leads
      rw [same]
      exact never
  | succ steps induction =>
      obtain ⟨previous, before, step⟩ := Option.bind_eq_some_iff.mp leads
      exact induction before ((never_stops_iff_successor step).mpr never)

/-- Steps that stop do so at a thread without a successor. -/
theorem exists_last_of_not_never_stops (stops : ¬ ledger.NeverStops thread) :
    ∃ steps last, ledger.stepsFrom? thread steps = some last ∧
      ledger.successor? last = none := by
  obtain ⟨steps, stopped⟩ : ∃ steps, ledger.stepsFrom? thread steps = none := by
    simpa [NeverStops] using stops
  induction steps with
  | zero => cases stopped
  | succ steps induction =>
      cases before : ledger.stepsFrom? thread steps with
      | none => exact induction before
      | some last =>
          rw [stepsFrom?, before, Option.bind_some] at stopped
          exact ⟨steps, last, before, stopped⟩

/-! ## Going round -/

theorem steps_from_mul {period : Nat} (returns : ledger.stepsFrom? thread period = some thread)
    (rounds : Nat) : ledger.stepsFrom? thread (period * rounds) = some thread := by
  induction rounds with
  | zero => rfl
  | succ rounds induction =>
      rw [Nat.mul_succ, steps_from_trans induction, returns]

theorem steps_from_mod {period : Nat} (returns : ledger.stepsFrom? thread period = some thread)
    (steps : Nat) : ledger.stepsFrom? thread steps = ledger.stepsFrom? thread (steps % period) := by
  conv_lhs => rw [← Nat.div_add_mod steps period]
  exact steps_from_trans (steps_from_mul returns _) _

theorem OnCycle.never_stops (cycle : ledger.OnCycle thread) : ledger.NeverStops thread := by
  obtain ⟨period, positive, returns⟩ := cycle
  intro steps stopped
  -- Enough rounds pass the place where the steps are said to stop.
  have enough : steps ≤ period * steps := Nat.le_mul_of_pos_left steps positive
  have round := steps_from_mul returns steps
  rw [← Nat.add_sub_cancel' enough, steps_from_add, stopped] at round
  cases round

/-- From a thread on a cycle, wherever the steps lead, further steps lead back. -/
theorem OnCycle.returns (cycle : ledger.OnCycle thread) {steps : Nat} {reached : ThreadId}
    (leads : ledger.stepsFrom? thread steps = some reached) :
    ∃ more, ledger.stepsFrom? reached more = some thread := by
  obtain ⟨period, positive, returns⟩ := cycle
  have enough : steps ≤ period * steps := Nat.le_mul_of_pos_left steps positive
  refine ⟨period * steps - steps, ?_⟩
  rw [← steps_from_trans leads, Nat.add_sub_cancel' enough]
  exact steps_from_mul returns steps

theorem OnCycle.mem_owners (cycle : ledger.OnCycle thread) : thread ∈ ledger.owners := by
  obtain ⟨period, positive, returns⟩ := cycle
  obtain ⟨before, rfl⟩ := Nat.exists_eq_succ_of_ne_zero (Nat.ne_of_gt positive)
  obtain ⟨previous, _, step⟩ := Option.bind_eq_some_iff.mp returns
  exact mem_owners_of_successor step

theorem EntersAt.never_stops {entry : ThreadId} (enters : ledger.EntersAt start entry) :
    ledger.NeverStops start := by
  obtain ⟨steps, leads, cycle, _⟩ := enters
  exact never_stops_of_reached leads cycle.never_stops

theorem EntersAt.unique {left right : ThreadId} (first : ledger.EntersAt start left)
    (second : ledger.EntersAt start right) : left = right := by
  obtain ⟨leftSteps, leftLeads, leftCycle, leftFirst⟩ := first
  obtain ⟨rightSteps, rightLeads, rightCycle, rightFirst⟩ := second
  rcases Nat.lt_trichotomy leftSteps rightSteps with less | same | more
  · exact absurd leftCycle (rightFirst leftSteps less left leftLeads)
  · rw [same, rightLeads] at leftLeads
    exact (Option.some.inj leftLeads).symm
  · exact absurd rightCycle (leftFirst rightSteps more right rightLeads)

end Ledger

end LockExplorer
