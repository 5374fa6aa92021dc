import LockExplorer.Proofs.OwnershipCycle.Change
import LockExplorer.Proofs.Run.Replay

/-!
# The single actions of a run

A run is taken apart into the actions it replays, each with what the run shared before it. What an
action does to the ledger, the line it adds and the verdict of its check depend on the ledger alone;
the run's own report is the first verdict that names a thread. Since every action finds the ledger
that the one before it left, what each action keeps is kept by the whole run.
-/

namespace LockExplorer

/-! ## Sequences that hand a ledger on -/

/-- Each item finds the ledger that the item before it left, from the first ledger to the last. -/
def Linked {σ : Type} (before after : σ → Simulation) : Ledger → List σ → Ledger → Prop
  | start, [], finish => start = finish
  | start, item :: later, finish =>
      (before item).ledger = start ∧ Linked before after (after item).ledger later finish

namespace Linked

variable {σ τ : Type} {before after : σ → Simulation} {start middle finish : Ledger}
  {items others : List σ}

theorem append (first : Linked before after start items middle)
    (second : Linked before after middle others finish) :
    Linked before after start (items ++ others) finish := by
  induction items generalizing start with
  | nil =>
      have same : start = middle := first
      rw [same]
      exact second
  | cons item later induction => exact ⟨first.1, induction first.2⟩

theorem split (linked : Linked before after start (items ++ others) finish) :
    ∃ middle, Linked before after start items middle ∧
      Linked before after middle others finish := by
  induction items generalizing start with
  | nil => exact ⟨start, rfl, linked⟩
  | cons item later induction =>
      obtain ⟨middle, first, second⟩ := induction linked.2
      exact ⟨middle, ⟨linked.1, first⟩, second⟩

theorem flat_map {innerBefore innerAfter : τ → Simulation} {parts : σ → List τ}
    (linked : Linked before after start items finish)
    (inner : ∀ item, Linked innerBefore innerAfter (before item).ledger (parts item)
      (after item).ledger) :
    Linked innerBefore innerAfter start (items.flatMap parts) finish := by
  induction items generalizing start with
  | nil => exact linked
  | cons item later induction =>
      have first := inner item
      rw [linked.1] at first
      exact first.append (induction linked.2)

/-- What holds at the start and is kept by every item holds before and after each of them, and at
the end. -/
theorem keeps (linked : Linked before after start items finish) (invariant : Ledger → Prop)
    (begins : invariant start)
    (kept : ∀ item ∈ items, invariant (before item).ledger → invariant (after item).ledger) :
    (∀ item ∈ items, invariant (before item).ledger ∧ invariant (after item).ledger) ∧
      invariant finish := by
  induction items generalizing start with
  | nil =>
      have same : start = finish := linked
      exact ⟨by simp, same ▸ begins⟩
  | cons item later induction =>
      have found : invariant (before item).ledger := linked.1 ▸ begins
      have left := kept item List.mem_cons_self found
      obtain ⟨inside, ends⟩ := induction linked.2 left fun other member =>
        kept other (List.mem_cons_of_mem _ member)
      exact ⟨List.forall_mem_cons.mpr ⟨⟨found, left⟩, inside⟩, ends⟩

theorem finish_eq (linked : Linked before after start items finish) :
    finish = (items.getLast?.map fun item => (after item).ledger).getD start := by
  induction items generalizing start with
  | nil => exact Eq.symm linked
  | cons item later induction =>
      rw [induction linked.2]
      cases later with
      | nil => rfl
      | cons second rest => simp [List.getLast?_cons]

end Linked

/-! ## One action -/

theorem Simulation.verdict_check (simulation : Simulation) :
    simulation.check.1 = simulation.ledger.cycle? := by
  unfold check
  cases simulation.ledger.cycle? <;> rfl

structure Replay where
  before : Simulation
  thread : ThreadId
  action : Action

namespace Replay

/-- Whether the action is a lock that could not be taken, and what is shared before the check. -/
def performed (replay : Replay) : Bool × Simulation :=
  (replay.before.record (.replaying replay.thread replay.action)).perform replay.thread
    replay.action

def failed (replay : Replay) : Bool :=
  replay.performed.1

def found (replay : Replay) : Option ThreadId :=
  replay.performed.2.check.1

def after (replay : Replay) : Simulation :=
  replay.performed.2.check.2

theorem ledger_after (replay : Replay) :
    replay.after.ledger = replay.before.ledger.step replay.thread replay.action := by
  rw [after, performed, Simulation.ledger_check, Simulation.ledger_perform,
    Simulation.ledger_record]

theorem found_eq (replay : Replay) : replay.found = replay.after.ledger.cycle? := by
  rw [found, Simulation.verdict_check, after, Simulation.ledger_check]

theorem found_eq_none_iff {replay : Replay} :
    replay.found = none ↔ replay.after.ledger.Acyclic := by
  rw [found_eq]
  exact Ledger.cycle_eq_none_iff

theorem on_cycle_of_found {replay : Replay} {named : ThreadId} (found : replay.found = some named) :
    replay.after.ledger.OnCycle named := by
  rw [found_eq] at found
  exact Ledger.on_cycle_of_cycle found

theorem failed_eq_of_lock {replay : Replay} {resource : Resource}
    (locks : replay.action = .lock resource) :
    replay.failed = replay.before.ledger.isHeld resource := by
  rw [failed, performed, locks, Simulation.perform, Simulation.ledger_record, Ledger.acquire?]
  cases replay.before.ledger.isHeld resource <;> rfl

end Replay

/-! ## All actions of a run -/

namespace Simulation

def replays (simulation : Simulation) (thread : ThreadId) : List Action → List Replay
  | [] => []
  | action :: later =>
      let replay : Replay := ⟨simulation, thread, action⟩
      replay :: replay.after.replays thread later

theorem replay_eq (simulation : Simulation) (thread : ThreadId) (action : Action)
    (outcome : Outcome) :
    simulation.replay thread action outcome =
      let replay : Replay := ⟨simulation, thread, action⟩
      ({ executed := outcome.executed + 1
         failed := outcome.failed + if replay.failed then 1 else 0
         deadlock := outcome.deadlock.or replay.found }, replay.after) := rfl

theorem map_action_replays (simulation : Simulation) (thread : ThreadId) (actions : List Action) :
    (simulation.replays thread actions).map Replay.action = actions := by
  induction actions generalizing simulation with
  | nil => rfl
  | cons action later induction => rw [replays, List.map_cons, induction]

theorem thread_of_mem_replays {simulation : Simulation} {thread : ThreadId} {actions : List Action}
    {replay : Replay} (member : replay ∈ simulation.replays thread actions) :
    replay.thread = thread := by
  induction actions generalizing simulation with
  | nil => simp [replays] at member
  | cons action later induction =>
      rcases List.mem_cons.mp member with same | behind
      · rw [same]
      · exact induction behind

theorem action_of_mem_replays {simulation : Simulation} {thread : ThreadId} {actions : List Action}
    {replay : Replay} (member : replay ∈ simulation.replays thread actions) :
    replay.action ∈ actions := by
  rw [← map_action_replays simulation thread actions]
  exact List.mem_map_of_mem member

theorem replays_append (simulation : Simulation) (thread : ThreadId) (first second : List Action)
    (outcome : Outcome) :
    simulation.replays thread (first ++ second) = simulation.replays thread first ++
      (simulation.replayAll thread first outcome).2.replays thread second := by
  induction first generalizing simulation outcome with
  | nil => rfl
  | cons action later induction =>
      rw [List.cons_append, replays, replays, replayAll, List.cons_append, induction]
      rfl

theorem length_replays (simulation : Simulation) (thread : ThreadId) (actions : List Action) :
    (simulation.replays thread actions).length = actions.length := by
  rw [← List.length_map (f := Replay.action), map_action_replays]

theorem split_of_mem_replays {simulation : Simulation} {thread : ThreadId} {actions : List Action}
    {replay : Replay} (member : replay ∈ simulation.replays thread actions) :
    ∃ earlier later, actions = earlier ++ replay.action :: later ∧
      replay.before.ledger =
        simulation.ledger.replayed (earlier.map fun action => (thread, action)) := by
  induction actions generalizing simulation with
  | nil => simp [replays] at member
  | cons action later induction =>
      rcases List.mem_cons.mp member with rfl | behind
      · exact ⟨[], later, rfl, rfl⟩
      · obtain ⟨earlier, rest, parts, ledger⟩ := induction behind
        refine ⟨action :: earlier, rest, by rw [parts]; rfl, ?_⟩
        rw [ledger, Replay.ledger_after]
        rfl

theorem get_elem_replays (simulation : Simulation) (thread : ThreadId) (earlier : List Action)
    (action : Action) (later : List Action) :
    ∃ replay, (simulation.replays thread (earlier ++ action :: later))[earlier.length]? =
        some replay ∧ replay.action = action ∧
      replay.before.ledger =
        simulation.ledger.replayed (earlier.map fun action => (thread, action)) := by
  refine ⟨⟨(simulation.replayAll thread earlier {}).2, thread, action⟩, ?_, rfl, ?_⟩
  · have passed := length_replays simulation thread earlier
    rw [replays_append simulation thread earlier _ {}, List.getElem?_append_right (by omega),
      passed, Nat.sub_self]
    rfl
  · exact ledger_replay_all simulation thread earlier {}

theorem linked_replays (simulation : Simulation) (thread : ThreadId) (actions : List Action)
    (outcome : Outcome) :
    Linked Replay.before Replay.after simulation.ledger (simulation.replays thread actions)
      (simulation.replayAll thread actions outcome).2.ledger := by
  induction actions generalizing simulation outcome with
  | nil => rfl
  | cons action later induction => exact ⟨rfl, induction _ _⟩

theorem deadlock_replay_all (simulation : Simulation) (thread : ThreadId) (actions : List Action)
    (outcome : Outcome) :
    (simulation.replayAll thread actions outcome).1.deadlock =
      outcome.deadlock.or ((simulation.replays thread actions).findSome? Replay.found) := by
  induction actions generalizing simulation outcome with
  | nil => rw [replays, List.findSome?_nil, Option.or_none, replayAll]
  | cons action later induction =>
      -- The outcome handed on already holds this verdict, and an earlier verdict wins.
      rw [replayAll, induction, replay_eq, replays, List.findSome?_cons, Option.or_assoc]
      congr 1
      cases Replay.found ⟨simulation, thread, action⟩ <;> rfl

end Simulation

/-! ## The lines of a run -/

def Ledger.narration (ledger : Ledger) (thread : ThreadId) : Action → String
  | .lock resource =>
      if ledger.isHeld resource then Line.failed thread resource else Line.acquired thread resource
  | .unlock resource => Line.released thread resource
  | .generic label => Line.executed thread label

def Ledger.finding (ledger : Ledger) : List String :=
  (ledger.cycle?.map Line.deadlock).toList

def Ledger.linesFrom (ledger : Ledger) (thread : ThreadId) : List Action → List String
  | [] => []
  | action :: later =>
      let next := ledger.step thread action
      ledger.narration thread action :: next.finding ++ next.linesFrom thread later

namespace Simulation

theorem log_check (simulation : Simulation) :
    simulation.check.2.log.toList = simulation.log.toList ++ simulation.ledger.finding := by
  unfold check Ledger.finding
  cases simulation.ledger.cycle? with
  | none => simp
  | some thread => exact Log.to_list_append _ _

theorem log_perform (simulation : Simulation) (thread : ThreadId) (action : Action) :
    (simulation.perform thread action).2.log.toList =
      simulation.log.toList ++ [simulation.ledger.narration thread action] := by
  cases action with
  | lock resource =>
      rw [perform, Ledger.narration, Ledger.acquire?]
      cases simulation.ledger.isHeld resource <;> exact Log.to_list_append _ _
  | unlock resource => exact Log.to_list_append _ _
  | generic label => exact Log.to_list_append _ _

theorem log_replay_all (simulation : Simulation) (thread : ThreadId) (actions : List Action)
    (outcome : Outcome) : (simulation.replayAll thread actions outcome).2.log.toList =
      simulation.log.toList ++ simulation.ledger.linesFrom thread actions := by
  induction actions generalizing simulation outcome with
  | nil => rw [replayAll, Ledger.linesFrom, List.append_nil]
  | cons action later induction =>
      have lines : (simulation.replay thread action outcome).2.log.toList =
          simulation.log.toList ++ simulation.ledger.narration thread action ::
            (simulation.ledger.step thread action).finding := by
        simp only [replay, log_check, log_perform, ledger_perform, ledger_record]
        exact List.append_assoc _ _ _
      rw [replayAll, induction, lines, ledger_replay, Ledger.linesFrom, List.append_assoc]

theorem log_run (simulation : Simulation) (thread : Thread) :
    (simulation.run thread).2.2.log.toList =
      simulation.log.toList ++ simulation.ledger.linesFrom thread.id thread.actions := by
  rw [run_eq, log_replay_all]

end Simulation

/-! ## The verdicts of a run -/

def Ledger.verdictsFrom (ledger : Ledger) (thread : ThreadId) :
    List Action → List (Option ThreadId)
  | [] => []
  | action :: later =>
      let next := ledger.step thread action
      next.cycle? :: next.verdictsFrom thread later

theorem Simulation.map_found_replays (simulation : Simulation) (thread : ThreadId)
    (actions : List Action) :
    (simulation.replays thread actions).map Replay.found =
      simulation.ledger.verdictsFrom thread actions := by
  induction actions generalizing simulation with
  | nil => rfl
  | cons action later induction =>
      rw [replays, List.map_cons, induction, Replay.found_eq, Replay.ledger_after,
        Ledger.verdictsFrom]

theorem Ledger.length_lines_from (ledger : Ledger) (thread : ThreadId) (actions : List Action) :
    (ledger.linesFrom thread actions).length =
      actions.length + (ledger.verdictsFrom thread actions).countP Option.isSome := by
  induction actions generalizing ledger with
  | nil => rfl
  | cons action later induction =>
      rw [linesFrom, verdictsFrom, List.length_append, List.length_cons, induction,
        List.countP_cons, finding]
      cases (ledger.step thread action).cycle? with
      | none => simp; omega
      | some named => simp; omega

end LockExplorer
