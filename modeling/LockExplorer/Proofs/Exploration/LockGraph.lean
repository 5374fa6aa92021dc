import LockExplorer.Proofs.Exploration.ThreadRuns
import Mathlib.Logic.Relation

/-!
# What the threads' texts say about reports

Whoever holds a resource has a lock of it among its actions, in every ledger of every exploration.
The steps of a ledger are therefore edges of a graph that can be read off the threads, and a thread
that is named in a report lies on a cycle of this graph.
-/

namespace LockExplorer

/-- From a name to the name of a thread that has a lock of the resource of that name. -/
def LockEdge (threads : List Thread) (name holder : ThreadId) : Prop :=
  ∃ thread ∈ threads, thread.id = holder ∧ Action.lock name.asResource ∈ thread.actions

namespace Ledger

variable {threads : List Thread} {ledger : Ledger} {name reached : ThreadId}

/-- Every owner is the name of a thread that has a lock of the resource. -/
def Sourced (ledger : Ledger) (threads : List Thread) : Prop :=
  ∀ resource owner, ledger.ownerOf? resource = some owner →
    ∃ thread ∈ threads, thread.id = owner ∧ Action.lock resource ∈ thread.actions

theorem sourced_empty (threads : List Thread) : empty.Sourced threads := by
  intro resource owner held
  cases held

theorem Sourced.step (sourced : ledger.Sourced threads) {thread : Thread} {action : Action}
    (listed : thread ∈ threads) (performs : action ∈ thread.actions) :
    (ledger.step thread.id action).Sourced threads := by
  intro resource owner held
  rw [owner_of_step] at held
  split at held
  · cases held
  · split at held
    · next locks =>
        rcases Option.or_eq_some_iff.mp held with before | ⟨_, taken⟩
        · exact sourced resource owner before
        · exact ⟨thread, listed, Option.some.inj taken, locks ▸ performs⟩
    · exact sourced resource owner held

theorem Sourced.trans_gen (sourced : ledger.Sourced threads) {steps : Nat}
    (leads : ledger.stepsFrom? name (steps + 1) = some reached) :
    Relation.TransGen (LockEdge threads) name reached := by
  induction steps generalizing reached with
  | zero =>
      rw [steps_from_one] at leads
      exact Relation.TransGen.single (sourced _ _ leads)
  | succ steps induction =>
      obtain ⟨previous, before, step⟩ := Option.bind_eq_some_iff.mp leads
      exact (induction before).tail (sourced _ _ step)

theorem Sourced.trans_gen_of_on_cycle (sourced : ledger.Sourced threads)
    (cycle : ledger.OnCycle name) : Relation.TransGen (LockEdge threads) name name := by
  obtain ⟨period, positive, returns⟩ := cycle
  obtain ⟨before, rfl⟩ := Nat.exists_eq_succ_of_ne_zero (Nat.ne_of_gt positive)
  exact sourced.trans_gen returns

end Ledger

theorem exists_thread_of_trans_gen {threads : List Thread} {name holder : ThreadId}
    (path : Relation.TransGen (LockEdge threads) name holder) :
    ∃ thread ∈ threads, thread.id = holder := by
  obtain ⟨_, _, thread, listed, named, _⟩ := Relation.TransGen.tail'_iff.mp path
  exact ⟨thread, listed, named⟩

theorem not_trans_gen_self_of_apart {threads : List Thread}
    (apart : ∀ thread ∈ threads, ∀ locker ∈ threads,
      Action.lock thread.id.asResource ∉ locker.actions) (name : ThreadId) :
    ¬ Relation.TransGen (LockEdge threads) name name := by
  intro path
  obtain ⟨thread, listed, rfl⟩ := exists_thread_of_trans_gen path
  obtain ⟨holder, ⟨locker, lockerListed, _, locks⟩, _⟩ := Relation.TransGen.head'_iff.mp path
  exact apart thread listed locker lockerListed locks

namespace Exploration

variable {threads : List Thread} {limit : Option UInt64}

theorem sourced_replays {replay : Replay} (member : replay ∈ replays threads limit) :
    replay.after.ledger.Sourced threads := by
  have sourced := (linked_replays threads limit).keeps (fun ledger => ledger.Sourced threads)
    (Ledger.sourced_empty threads) ?_
  · exact (sourced.1 replay member).2
  · intro other otherMember before
    obtain ⟨run, runMember, inside⟩ := List.mem_flatMap.mp otherMember
    rw [Replay.ledger_after, ThreadRun.thread_of_mem_replays inside]
    exact before.step (thread_of_mem_thread_runs runMember) (ThreadRun.action_of_mem_replays inside)

/-- Reports are statically justified: each names a listed thread on a cycle of the lock graph. Where
this graph has no cycle, and hence where no listed thread is named like a locked resource, no
exploration reports anything. -/
theorem involved_on_lock_cycle (threads : List Thread) :
    (∀ limit, ∀ report ∈ (explore threads limit).deadlocks,
        (∃ thread ∈ threads, thread.id = report.involved) ∧
          Relation.TransGen (LockEdge threads) report.involved report.involved) ∧
      ((∀ name, ¬ Relation.TransGen (LockEdge threads) name name) →
        ∀ limit, (explore threads limit).deadlocks = #[]) ∧
      ((∀ thread ∈ threads, ∀ locker ∈ threads,
          Action.lock thread.id.asResource ∉ locker.actions) →
        ∀ limit, (explore threads limit).deadlocks = #[]) := by
  have onCycle : ∀ limit, ∀ report ∈ (explore threads limit).deadlocks,
      Relation.TransGen (LockEdge threads) report.involved report.involved := by
    intro limit report member
    obtain ⟨replay, replayMember, cycle⟩ := on_cycle_of_mem_deadlocks member
    exact (sourced_replays replayMember).trans_gen_of_on_cycle cycle
  have silent : (∀ name, ¬ Relation.TransGen (LockEdge threads) name name) →
      ∀ limit, (explore threads limit).deadlocks = #[] := by
    intro acyclic limit
    apply Array.eq_empty_iff_forall_not_mem.mpr
    intro report member
    exact acyclic report.involved (onCycle limit report member)
  refine ⟨?_, silent, ?_⟩
  · intro limit report member
    have cycle := onCycle limit report member
    exact ⟨exists_thread_of_trans_gen cycle, cycle⟩
  · intro apart
    exact silent (not_trans_gen_self_of_apart apart)

def separate : List Thread :=
  [{ id := ⟨"A"⟩, actions := [.lock ⟨"R1"⟩, .lock ⟨"R2"⟩] },
    { id := ⟨"B"⟩, actions := [.lock ⟨"R2"⟩, .lock ⟨"R1"⟩] }]

theorem involved_on_lock_cycle_entangled :
    (⟨1, ⟨"A"⟩, ⟨"B"⟩⟩ ∈ (explore entangled none).deadlocks ∧
        (∃ thread ∈ entangled, thread.id = ⟨"B"⟩) ∧
        Relation.TransGen (LockEdge entangled) ⟨"B"⟩ ⟨"B"⟩) ∧
      ((∀ name, ¬ Relation.TransGen (LockEdge separate) name name) ∧
        (explore separate none).deadlocks = #[]) ∧
      (∀ thread ∈ separate, ∀ locker ∈ separate,
          Action.lock thread.id.asResource ∉ locker.actions) ∧
        (explore separate (some 1)).deadlocks = #[] := by
  have member : ⟨1, ⟨"A"⟩, ⟨"B"⟩⟩ ∈ (explore entangled none).deadlocks := by decide +kernel
  have apart : ∀ thread ∈ separate, ∀ locker ∈ separate,
      Action.lock thread.id.asResource ∉ locker.actions := by decide
  have acyclic := not_trans_gen_self_of_apart apart
  obtain ⟨named, _, _⟩ := involved_on_lock_cycle entangled
  obtain ⟨_, silent, silentApart⟩ := involved_on_lock_cycle separate
  exact ⟨⟨member, named none _ member⟩, ⟨acyclic, silent acyclic none⟩, apart,
    silentApart apart (some 1)⟩

end Exploration

end LockExplorer
