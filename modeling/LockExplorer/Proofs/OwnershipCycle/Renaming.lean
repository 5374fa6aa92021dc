import LockExplorer.Proofs.OwnershipCycle.Change
import Mathlib.Data.List.Nodup

/-!
# Renamed ledgers

Names are spelled differently, the same way for threads and resources, so that different names stay
different. Then the steps from a thread and the cycles are the same up to the spelling. Which thread
the check names may change, because it depends on the order of the resources; it does not change
when the spelling keeps that order.
-/

namespace LockExplorer

def Resource.renamed (rename : String → String) (resource : Resource) : Resource :=
  ⟨rename resource.name⟩

def ThreadId.renamed (rename : String → String) (thread : ThreadId) : ThreadId :=
  ⟨rename thread.name⟩

/-- The action on the renamed resource; labels are not names and stay. -/
def Action.renamed (rename : String → String) : Action → Action
  | .lock resource => .lock (resource.renamed rename)
  | .unlock resource => .unlock (resource.renamed rename)
  | .generic label => .generic label

def KeepsOrder (rename : String → String) : Prop :=
  ∀ first second, first < second → rename first < rename second

section

variable {rename : String → String} (injective : Function.Injective rename)
include injective

theorem Resource.renamed_inj {first second : Resource} :
    first.renamed rename = second.renamed rename ↔ first = second := by
  cases first
  cases second
  simp only [Resource.renamed, Resource.mk.injEq]
  exact injective.eq_iff

theorem ThreadId.renamed_inj {first second : ThreadId} :
    first.renamed rename = second.renamed rename ↔ first = second := by
  cases first
  cases second
  simp only [ThreadId.renamed, ThreadId.mk.injEq]
  exact injective.eq_iff

theorem Action.renamed_eq_lock_iff {action : Action} {resource : Resource} :
    action.renamed rename = .lock (resource.renamed rename) ↔ action = .lock resource := by
  cases action <;> simp [renamed, Resource.renamed_inj injective]

theorem Action.renamed_eq_unlock_iff {action : Action} {resource : Resource} :
    action.renamed rename = .unlock (resource.renamed rename) ↔ action = .unlock resource := by
  cases action <;> simp [renamed, Resource.renamed_inj injective]

end

namespace Ledger

/-- The second ledger holds what the first holds, under its other name and with the owner's other
name, and nothing else. -/
structure Renames (rename : String → String) (left right : Ledger) : Prop where
  owner : ∀ resource, right.ownerOf? (resource.renamed rename) =
    (left.ownerOf? resource).map (ThreadId.renamed rename)
  covered : ∀ resource, right.ownerOf? resource ≠ none →
    ∃ original : Resource, resource = original.renamed rename

namespace Renames

variable {rename : String → String} {left right : Ledger} {thread : ThreadId}

theorem empty (rename : String → String) : Renames rename Ledger.empty Ledger.empty := by
  constructor
  case owner => simp
  case covered => simp

theorem step (injective : Function.Injective rename) (renames : Renames rename left right)
    (thread : ThreadId) (action : Action) :
    Renames rename (left.step thread action)
      (right.step (thread.renamed rename) (action.renamed rename)) := by
  constructor
  case owner =>
    intro resource
    simp only [owner_of_step, Action.renamed_eq_lock_iff injective,
      Action.renamed_eq_unlock_iff injective, renames.owner]
    split
    · rfl
    · split
      · cases left.ownerOf? resource <;> rfl
      · rfl
  case covered =>
    intro resource held
    rw [owner_of_step] at held
    split at held
    · exact absurd rfl held
    · split at held
      · next locks =>
          cases action with
          | lock original => exact ⟨original, (Action.lock.inj locks).symm⟩
          | unlock original => cases locks
          | generic label => cases locks
      · exact renames.covered resource held

theorem replayed (injective : Function.Injective rename) (renames : Renames rename left right)
    (thread : ThreadId) (actions : List Action) :
    Renames rename (left.replayed (actions.map fun action => (thread, action)))
      (right.replayed ((actions.map (Action.renamed rename)).map fun action =>
        (thread.renamed rename, action))) := by
  induction actions generalizing left right with
  | nil => exact renames
  | cons action later induction => exact induction (renames.step injective thread action)

theorem original_of_owner (renames : Renames rename left right) {resource : Resource}
    {owner : ThreadId} (held : right.ownerOf? resource = some owner) :
    ∃ original holder, resource = original.renamed rename ∧ owner = holder.renamed rename ∧
      left.ownerOf? original = some holder := by
  rcases renames.covered resource (by simp [held]) with ⟨original, rfl⟩
  rw [renames.owner] at held
  rcases Option.map_eq_some_iff.mp held with ⟨holder, found, rfl⟩
  exact ⟨original, holder, rfl, rfl, found⟩

theorem mem_entries_iff (renames : Renames rename left right) {entry : Resource × ThreadId} :
    entry ∈ right.entries ↔ entry ∈ left.entries.map fun original =>
      (original.1.renamed rename, original.2.renamed rename) := by
  rcases entry with ⟨resource, owner⟩
  rw [← owner_of_eq_some_iff, List.mem_map]
  constructor
  · intro held
    rcases renames.original_of_owner held with ⟨original, holder, rfl, rfl, found⟩
    exact ⟨(original, holder), owner_of_eq_some_iff.mp found, rfl⟩
  · intro listed
    rcases listed with ⟨⟨original, holder⟩, member, same⟩
    cases same
    rw [renames.owner, owner_of_eq_some_iff.mpr member, Option.map_some]

theorem perm_entries (injective : Function.Injective rename)
    (renames : Renames rename left right) :
    right.entries.Perm (left.entries.map fun original =>
      (original.1.renamed rename, original.2.renamed rename)) := by
  apply (List.perm_ext_iff_of_nodup right.nodup_entries _).mpr
  · intro entry
    exact renames.mem_entries_iff
  · apply List.Nodup.map _ left.nodup_entries
    intro first second same
    rcases Prod.mk.inj same with ⟨resources, owners⟩
    exact Prod.ext ((Resource.renamed_inj injective).mp resources)
      ((ThreadId.renamed_inj injective).mp owners)

/-! ## Cycles -/

theorem successor (renames : Renames rename left right) (thread : ThreadId) :
    right.successor? (thread.renamed rename) =
      (left.successor? thread).map (ThreadId.renamed rename) :=
  renames.owner thread.asResource

theorem steps_from (renames : Renames rename left right) (thread : ThreadId) (steps : Nat) :
    right.stepsFrom? (thread.renamed rename) steps =
      (left.stepsFrom? thread steps).map (ThreadId.renamed rename) := by
  induction steps with
  | zero => rfl
  | succ steps induction =>
      rw [Ledger.stepsFrom?, Ledger.stepsFrom?, induction]
      cases left.stepsFrom? thread steps with
      | none => rfl
      | some reached => exact renames.successor reached

theorem on_cycle_iff (injective : Function.Injective rename) (renames : Renames rename left right) :
    right.OnCycle (thread.renamed rename) ↔ left.OnCycle thread := by
  apply exists_congr
  intro steps
  apply and_congr_right
  intro _
  rw [renames.steps_from]
  cases left.stepsFrom? thread steps with
  | none => simp
  | some reached => simp [ThreadId.renamed_inj injective]

theorem never_stops_iff (renames : Renames rename left right) :
    right.NeverStops (thread.renamed rename) ↔ left.NeverStops thread := by
  apply forall_congr'
  intro steps
  rw [renames.steps_from, ne_eq, Option.map_eq_none_iff]

theorem acyclic_iff (injective : Function.Injective rename) (renames : Renames rename left right) :
    right.Acyclic ↔ left.Acyclic := by
  constructor
  · intro acyclic thread cycle
    exact acyclic _ ((renames.on_cycle_iff injective).mpr cycle)
  · intro acyclic thread cycle
    -- A thread on a cycle owns something, so its name is one that was given by the renaming.
    rcases List.mem_map.mp cycle.mem_owners with ⟨⟨resource, owner⟩, member, same⟩
    rcases renames.original_of_owner (owner_of_eq_some_iff.mpr member) with
      ⟨_, holder, _, spelled, _⟩
    rw [← same, spelled] at cycle
    exact acyclic holder ((renames.on_cycle_iff injective).mp cycle)

theorem is_some_cycle (injective : Function.Injective rename)
    (renames : Renames rename left right) :
    right.cycle?.isSome = left.cycle?.isSome := by
  rw [Bool.eq_iff_iff, Option.isSome_iff_ne_none, Option.isSome_iff_ne_none, ne_eq, ne_eq,
    cycle_eq_none_iff, cycle_eq_none_iff, renames.acyclic_iff injective]

/-! ## A renaming that keeps the order -/

theorem lt_of_renamed_lt (ordered : KeepsOrder rename) {first second : Resource}
    (below : first.renamed rename < second.renamed rename) : first < second := by
  by_contra notBelow
  by_cases above : second < first
  · have renamedAbove : second.renamed rename < first.renamed rename := ordered _ _ above
    exact Resource.lt_irrefl _ (Resource.lt_trans below renamedAbove)
  · rw [Resource.eq_of_not_lt notBelow above] at below
    exact Resource.lt_irrefl _ below

theorem enters_at (injective : Function.Injective rename) (renames : Renames rename left right)
    {start entry : ThreadId} (enters : left.EntersAt start entry) :
    right.EntersAt (start.renamed rename) (entry.renamed rename) := by
  rcases enters with ⟨steps, leads, cycle, first⟩
  refine ⟨steps, ?_, (renames.on_cycle_iff injective).mpr cycle, ?_⟩
  · rw [renames.steps_from, leads, Option.map_some]
  · intro earlier less other otherLeads
    rw [renames.steps_from] at otherLeads
    rcases Option.map_eq_some_iff.mp otherLeads with ⟨original, originalLeads, rfl⟩
    rw [renames.on_cycle_iff injective]
    exact first earlier less original originalLeads

theorem named (injective : Function.Injective rename) (ordered : KeepsOrder rename)
    (renames : Renames rename left right) (named : left.Named thread) :
    right.Named (thread.renamed rename) := by
  rcases named with ⟨resource, owner, held, never, least, enters⟩
  refine ⟨resource.renamed rename, owner.renamed rename, ?_, renames.never_stops_iff.mpr never, ?_,
    renames.enters_at injective enters⟩
  · rw [renames.owner, held, Option.map_some]
  · intro other otherOwner otherHeld otherNever below
    rcases renames.original_of_owner otherHeld with ⟨original, holder, rfl, rfl, found⟩
    apply least original holder found
    · exact renames.never_stops_iff.mp otherNever
    · exact lt_of_renamed_lt ordered below

theorem cycle_eq (injective : Function.Injective rename) (ordered : KeepsOrder rename)
    (renames : Renames rename left right) :
    right.cycle? = left.cycle?.map (ThreadId.renamed rename) := by
  rcases left.cycle_spec with ⟨missed, acyclic⟩ | ⟨thread, found, isNamed⟩
  · rw [missed]
    exact cycle_eq_none_iff.mpr ((renames.acyclic_iff injective).mpr acyclic)
  · have renamedNamed := renames.named injective ordered isNamed
    rcases right.cycle_spec with ⟨_, acyclic⟩ | ⟨other, otherFound, otherNamed⟩
    · exact absurd renamedNamed.on_cycle (acyclic _)
    · rw [found, otherFound, otherNamed.unique renamedNamed, Option.map_some]

end Renames

end Ledger

end LockExplorer
