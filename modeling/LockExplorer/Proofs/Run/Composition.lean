import LockExplorer.Proofs.Run.Steps

/-!
# Runs one after the other

Running a list of actions is the same as running its first part and then the rest, as two threads of
the same name would. Nothing is remembered between the two but what is shared: each run begins at
its first action wherever the cursor stood, and what it adds to the log and reports in the end
depends on the ledger it finds, not on the lines or events before it.
-/

namespace LockExplorer

namespace Outcome

def andThen (first second : Outcome) : Outcome where
  executed := first.executed + second.executed
  failed := first.failed + second.failed
  deadlock := first.deadlock.or second.deadlock

@[simp] theorem and_then_nothing (outcome : Outcome) : outcome.andThen {} = outcome := by
  cases outcome
  simp [andThen]

@[simp] theorem nothing_and_then (outcome : Outcome) :
    ({} : Outcome).andThen outcome = outcome := by
  cases outcome
  simp [andThen]

theorem and_then_assoc (first second third : Outcome) :
    (first.andThen second).andThen third = first.andThen (second.andThen third) := by
  simp only [andThen, Nat.add_assoc, Option.or_assoc]

end Outcome

/-! ## The outcome of a run -/

namespace Ledger

def refuses (ledger : Ledger) : Action → Bool
  | .lock resource => ledger.isHeld resource
  | .unlock _ => false
  | .generic _ => false

def outcomeOf (ledger : Ledger) (thread : ThreadId) (action : Action) : Outcome where
  executed := 1
  failed := if ledger.refuses action then 1 else 0
  deadlock := (ledger.step thread action).cycle?

def outcomeFrom (ledger : Ledger) (thread : ThreadId) : List Action → Outcome
  | [] => {}
  | action :: later =>
      (ledger.outcomeOf thread action).andThen
        ((ledger.step thread action).outcomeFrom thread later)

theorem executed_outcome_from (ledger : Ledger) (thread : ThreadId) (actions : List Action) :
    (ledger.outcomeFrom thread actions).executed = actions.length := by
  induction actions generalizing ledger with
  | nil => rfl
  | cons action later induction =>
      rw [outcomeFrom, Outcome.andThen, induction, List.length_cons, Nat.add_comm]
      rfl

end Ledger

namespace Simulation

theorem refused_perform (simulation : Simulation) (thread : ThreadId) (action : Action) :
    (simulation.perform thread action).1 = simulation.ledger.refuses action := by
  cases action with
  | lock resource =>
      rw [perform, Ledger.refuses, Ledger.acquire?]
      cases simulation.ledger.isHeld resource <;> rfl
  | unlock resource => rfl
  | generic label => rfl

theorem outcome_replay (simulation : Simulation) (thread : ThreadId) (action : Action)
    (outcome : Outcome) :
    (simulation.replay thread action outcome).1 =
      outcome.andThen (simulation.ledger.outcomeOf thread action) := by
  simp only [replay, refused_perform, verdict_check, ledger_perform, ledger_record]
  rfl

/-- An outcome that is handed in comes before what the actions themselves come to. -/
theorem outcome_replay_all (simulation : Simulation) (thread : ThreadId) (actions : List Action)
    (outcome : Outcome) :
    (simulation.replayAll thread actions outcome).1 =
      outcome.andThen (simulation.ledger.outcomeFrom thread actions) := by
  induction actions generalizing simulation outcome with
  | nil => rw [replayAll, Ledger.outcomeFrom, Outcome.and_then_nothing]
  | cons action later induction =>
      rw [replayAll, induction, outcome_replay, ledger_replay, Outcome.and_then_assoc,
        Ledger.outcomeFrom]

theorem outcome_run (simulation : Simulation) (thread : Thread) :
    (simulation.run thread).2.1 = simulation.ledger.outcomeFrom thread.id thread.actions := by
  rw [run_eq, outcome_replay_all, Outcome.nothing_and_then]

/-! ## Two runs -/

theorem replay_all_append (simulation : Simulation) (thread : ThreadId)
    (first second : List Action) (outcome : Outcome) :
    simulation.replayAll thread (first ++ second) outcome =
      (simulation.replayAll thread first outcome).2.replayAll thread second
        (simulation.replayAll thread first outcome).1 := by
  induction first generalizing simulation outcome with
  | nil => rfl
  | cons action later induction =>
      rw [List.cons_append, replayAll, replayAll, induction]

/-- What is shared afterwards does not depend on the outcome that is handed in. -/
theorem shared_replay_all (simulation : Simulation) (thread : ThreadId) (actions : List Action)
    (outcome other : Outcome) :
    (simulation.replayAll thread actions outcome).2 =
      (simulation.replayAll thread actions other).2 := by
  induction actions generalizing simulation outcome other with
  | nil => rfl
  | cons action later induction => exact induction _ _ _

variable (simulation : Simulation) (id : ThreadId) (first second : List Action)
  (cursor firstCursor secondCursor : Nat)

theorem shared_run_append :
    (simulation.run ⟨id, first ++ second, cursor⟩).2.2 =
      ((simulation.run ⟨id, first, firstCursor⟩).2.2.run ⟨id, second, secondCursor⟩).2.2 := by
  rw [run_eq, run_eq, run_eq]
  dsimp only
  rw [replay_all_append]
  exact shared_replay_all _ id second _ {}

theorem outcome_run_append :
    let front := simulation.run ⟨id, first, firstCursor⟩
    (simulation.run ⟨id, first ++ second, cursor⟩).2.1 =
      front.2.1.andThen (front.2.2.run ⟨id, second, secondCursor⟩).2.1 := by
  intro front
  have handed : front.2 = simulation.replayAll id first {} := congrArg Prod.snd (run_eq _ _)
  rw [outcome_run front.2.2, run_eq]
  dsimp only
  rw [replay_all_append, outcome_replay_all, ← handed]

end Simulation

/-- A thread's run of two lists of actions, for any ledger, log and trace and at any cursor, is a
run of the first list and then one of the second: the ledger, the log and the trace are the same,
executed actions and failed locks add up, and the first report is that of the first run if it has
one. What a run adds to the log and what it comes to are the same after any log and trace and at any
cursor; all actions are executed; and the thread is finished, with its name and its actions. -/
theorem Simulation.runs_compose (ledger : Ledger) (id : ThreadId) :
    (∀ (first second : List Action) (log : Log) (trace : Array TraceEvent)
        (cursor firstCursor secondCursor : Nat),
      let whole := run ⟨ledger, log, trace⟩ ⟨id, first ++ second, cursor⟩
      let front := run ⟨ledger, log, trace⟩ ⟨id, first, firstCursor⟩
      let back := front.2.2.run ⟨id, second, secondCursor⟩
      whole.2.2 = back.2.2 ∧
        whole.2.1.executed = front.2.1.executed + back.2.1.executed ∧
        whole.2.1.failed = front.2.1.failed + back.2.1.failed ∧
        whole.2.1.deadlock = front.2.1.deadlock.or back.2.1.deadlock) ∧
    ∀ actions : List Action, ∃ (after : Ledger) (outcome : Outcome) (lines : List String),
      outcome.executed = actions.length ∧
      ∀ (log : Log) (trace : Array TraceEvent) (cursor : Nat),
        let ran := run ⟨ledger, log, trace⟩ ⟨id, actions, cursor⟩
        ran.1 = ⟨id, actions, actions.length⟩ ∧ ran.1.isFinished = true ∧ ran.2.1 = outcome ∧
          ran.2.2.ledger = after ∧ ran.2.2.log.toList = log.toList ++ lines := by
  constructor
  · intro first second log trace cursor firstCursor secondCursor whole front back
    have outcome : whole.2.1 = front.2.1.andThen back.2.1 :=
      outcome_run_append _ id first second cursor firstCursor secondCursor
    refine ⟨shared_run_append _ id first second cursor firstCursor secondCursor, ?_⟩
    rw [outcome]
    exact ⟨rfl, rfl, rfl⟩
  · intro actions
    refine ⟨ledger.replayed (actions.map fun action => (id, action)),
      ledger.outcomeFrom id actions, ledger.linesFrom id actions,
      ledger.executed_outcome_from id actions, ?_⟩
    intro log trace cursor ran
    have thread : ran.1 = ⟨id, actions, actions.length⟩ := congrArg Prod.fst (run_eq _ _)
    refine ⟨thread, ?_, outcome_run _ _, ledger_run _ _, log_run _ _⟩
    rw [thread]
    exact decide_eq_true (Nat.le_refl _)

end LockExplorer
