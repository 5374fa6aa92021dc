import LockExplorer.Proofs.Exploration.SideBySide

/-!
# One resource by itself

What happens to a resource is decided by the actions on it. All other actions can be left out of
every thread: the same orderings are run, the actions on the resource succeed and fail as before,
and whoever holds it at the end is the same.
-/

namespace LockExplorer

/-! ## Actions on a resource -/

def Action.concerns (resource : Resource) (action : Action) : Bool :=
  decide (action = .lock resource) || decide (action = .unlock resource)

def Thread.restricted (resource : Resource) (thread : Thread) : Thread :=
  { thread with actions := thread.actions.filter (Action.concerns resource) }

inductive Effect where
  | acquired
  | failed
  | released
deriving DecidableEq

def Replay.effectOn? (resource : Resource) (replay : Replay) : Option Effect :=
  if replay.action = .lock resource then some (if replay.failed then .failed else .acquired)
  else if replay.action = .unlock resource then some .released
  else none

def ThreadRun.effectsOn (resource : Resource) (run : ThreadRun) : List Effect :=
  run.replays.filterMap (Replay.effectOn? resource)

/-- What the actions of a run come to, each with the number of the ordering and with the position
of the run in it. -/
def ThreadRun.placedEffectsOn (resource : Resource) (run : ThreadRun) (position : Nat) :
    List (Nat × Nat × Effect) :=
  (run.effectsOn resource).map fun effect => (run.ordering, position, effect)

def Exploration.effectsOn (resource : Resource) (threads : List Thread) (limit : Option UInt64) :
    List (Nat × Nat × Effect) :=
  (orderingRuns threads limit).flatMap fun runs =>
    runs.zipIdx.flatMap fun placed => placed.1.placedEffectsOn resource placed.2

/-! ## One run -/

namespace Ledger

variable {left right : Ledger} {resource : Resource}

def AgreeOn (resource : Resource) (left right : Ledger) : Prop :=
  left.ownerOf? resource = right.ownerOf? resource

theorem AgreeOn.step (agree : left.AgreeOn resource right) (thread : ThreadId) (action : Action) :
    (left.step thread action).AgreeOn resource (right.step thread action) := by
  unfold AgreeOn at agree ⊢
  rw [owner_of_step, owner_of_step, agree]

theorem AgreeOn.step_apart (agree : left.AgreeOn resource right) (thread : ThreadId)
    {action : Action} (apart : action.concerns resource = false) :
    (left.step thread action).AgreeOn resource right := by
  unfold AgreeOn at agree ⊢
  simp only [Action.concerns, Bool.or_eq_false_iff, decide_eq_false_iff_not] at apart
  rw [owner_of_step, if_neg apart.2, if_neg apart.1, agree]

theorem AgreeOn.replayed (agree : left.AgreeOn resource right) (thread : ThreadId)
    (actions : List Action) :
    (left.replayed (actions.map fun action => (thread, action))).AgreeOn resource
      (right.replayed
        ((actions.filter (Action.concerns resource)).map fun action => (thread, action))) := by
  induction actions generalizing left right with
  | nil => exact agree
  | cons action later induction =>
      cases concerned : action.concerns resource with
      | true =>
          rw [List.filter_cons_of_pos concerned]
          exact induction (agree.step thread action)
      | false =>
          rw [List.filter_cons_of_neg (by simp [concerned])]
          exact induction (agree.step_apart thread concerned)

end Ledger

theorem Replay.effect_on_apart {resource : Resource} {replay : Replay}
    (apart : replay.action.concerns resource = false) : replay.effectOn? resource = none := by
  simp only [Action.concerns, Bool.or_eq_false_iff, decide_eq_false_iff_not] at apart
  rw [effectOn?, if_neg apart.1, if_neg apart.2]

theorem Replay.effect_on_congr {resource : Resource} {replay other : Replay}
    (sameAction : other.action = replay.action)
    (agree : replay.before.ledger.AgreeOn resource other.before.ledger) :
    other.effectOn? resource = replay.effectOn? resource := by
  rw [effectOn?, effectOn?, sameAction]
  by_cases locks : replay.action = .lock resource
  · rw [if_pos locks, if_pos locks, failed_eq_of_lock locks,
      failed_eq_of_lock (sameAction.trans locks), Ledger.isHeld, Ledger.isHeld, agree]
  · rw [if_neg locks, if_neg locks]

theorem Simulation.effects_replays {resource : Resource} {left right : Simulation}
    (agree : left.ledger.AgreeOn resource right.ledger) (thread : ThreadId)
    (actions : List Action) :
    (right.replays thread (actions.filter (Action.concerns resource))).filterMap
        (Replay.effectOn? resource) =
      (left.replays thread actions).filterMap (Replay.effectOn? resource) := by
  induction actions generalizing left right with
  | nil => rfl
  | cons action later induction =>
      cases concerned : action.concerns resource with
      | true =>
          have same : Replay.effectOn? resource ⟨right, thread, action⟩ =
              Replay.effectOn? resource ⟨left, thread, action⟩ :=
            Replay.effect_on_congr rfl agree
          have onward := agree.step thread action
          rw [List.filter_cons_of_pos concerned, replays, replays, List.filterMap_cons,
            List.filterMap_cons, same, induction]
          rw [Replay.ledger_after, Replay.ledger_after]
          exact onward
      | false =>
          have onward := agree.step_apart thread concerned
          have silent : Replay.effectOn? resource ⟨left, thread, action⟩ = none :=
            Replay.effect_on_apart concerned
          rw [List.filter_cons_of_neg (by simp [concerned]), replays,
            List.filterMap_cons_none silent, induction]
          rw [Replay.ledger_after]
          exact onward

/-! ## The exploration -/

namespace Exploration

variable {resource : Resource}

theorem keeps_agree_on (resource : Resource) :
    Keeps (Ledger.AgreeOn resource) (Thread.restricted resource) := by
  intro thread left right agree
  exact agree.replayed thread.id thread.actions

theorem effects_on_beside {run other : ThreadRun}
    (beside : run.Beside (Ledger.AgreeOn resource) (Thread.restricted resource) other) :
    other.effectsOn resource = run.effectsOn resource := by
  have announced : run.announced.ledger.AgreeOn resource other.announced.ledger := beside.before
  have same := Simulation.effects_replays announced run.thread.id run.thread.actions
  rw [ThreadRun.effectsOn, ThreadRun.replays, beside.thread]
  exact same

theorem placed_effects_on_beside {runs others : List ThreadRun}
    (beside : List.Forall₂
      (ThreadRun.Beside (Ledger.AgreeOn resource) (Thread.restricted resource)) runs others)
    (start : Nat) :
    ((others.zipIdx start).flatMap fun placed => placed.1.placedEffectsOn resource placed.2) =
      (runs.zipIdx start).flatMap fun placed => placed.1.placedEffectsOn resource placed.2 := by
  induction beside generalizing start with
  | nil => rfl
  | cons first _ induction =>
      rw [List.zipIdx_cons, List.zipIdx_cons, List.flatMap_cons, List.flatMap_cons, induction,
        ThreadRun.placedEffectsOn, effects_on_beside first, first.ordering]
      rfl

theorem orderings_restricted (resource : Resource) (threads : List Thread)
    (limit : Option UInt64) :
    (explore (threads.map (Thread.restricted resource)) limit).orderings =
      (explore threads limit).orderings := by
  rw [(explore_spec _ limit).2.1, (explore_spec threads limit).2.1, orderings_within_map,
    List.map_map]
  congr 1
  apply List.map_congr_left
  intro ordering _
  exact List.map_map

theorem effects_on_restricted (resource : Resource) (threads : List Thread)
    (limit : Option UInt64) :
    effectsOn resource (threads.map (Thread.restricted resource)) limit =
      effectsOn resource threads limit := by
  apply flat_map_eq_of_forall₂ ((keeps_agree_on resource).explore rfl threads limit).1
  intro runs others beside
  exact placed_effects_on_beside beside 0

/-- Actions on other resources do not matter to a resource. With them left out, the explorations of
any threads under any limit run the same threads in the same orders; each action on the resource
comes to the same in the same place; and the resource has the same owner at the end. -/
theorem explore_restricted (threads : List Thread) (limit : Option UInt64) (resource : Resource) :
    let kept := threads.map (Thread.restricted resource)
    orderingsWithin kept limit =
        (orderingsWithin threads limit).map (List.map (Thread.restricted resource)) ∧
      (explore kept limit).orderings = (explore threads limit).orderings ∧
      effectsOn resource kept limit = effectsOn resource threads limit ∧
      (explore kept limit).simulation.ledger.ownerOf? resource =
        (explore threads limit).simulation.ledger.ownerOf? resource := by
  constructor
  · exact orderings_within_map _ threads limit
  constructor
  · exact orderings_restricted resource threads limit
  constructor
  · exact effects_on_restricted resource threads limit
  · exact ((keeps_agree_on resource).explore rfl threads limit).2.symm

example : effectsOn ⟨"R"⟩
    [⟨⟨"T"⟩, [.lock ⟨"R"⟩, .lock ⟨"S"⟩], 0⟩, ⟨⟨"U"⟩, [.lock ⟨"R"⟩, .unlock ⟨"R"⟩], 0⟩] none =
      [(0, 0, .acquired), (0, 1, .failed), (0, 1, .released), (1, 0, .acquired),
        (1, 0, .released), (1, 1, .acquired)] := by decide +kernel

end Exploration

end LockExplorer
