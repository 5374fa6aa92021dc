import LockExplorer.Proofs.Run.Steps

/-!
# A thread that starts from nothing

While a thread runs against a ledger that was empty at its start, everything that is held is its
own: just what it has locked and not released since. A lock fails exactly when the thread holds the
resource already. The only possible cycle is that of the thread with itself, and it is there while
the thread holds the resource that is spelled like it.
-/

namespace LockExplorer

/-- A lock of the resource has no release of it after it. -/
def Unreleased (resource : Resource) (actions : List Action) : Prop :=
  ∃ earlier later, actions = earlier ++ .lock resource :: later ∧ .unlock resource ∉ later

theorem Unreleased.mem {resource : Resource} {actions : List Action}
    (unreleased : Unreleased resource actions) : .lock resource ∈ actions := by
  obtain ⟨earlier, later, rfl, _⟩ := unreleased
  simp

theorem unreleased_concat_iff {resource : Resource} {actions : List Action} {action : Action} :
    Unreleased resource (actions ++ [action]) ↔
      action = .lock resource ∨ action ≠ .unlock resource ∧ Unreleased resource actions := by
  constructor
  · rintro ⟨earlier, later, parts, kept⟩
    rcases List.eq_nil_or_concat' later with rfl | ⟨before, last, rfl⟩
    · exact Or.inl (List.cons.inj (List.append_inj' parts rfl).2).1
    · rw [← List.cons_append, ← List.append_assoc] at parts
      obtain ⟨front, same⟩ := List.append_inj' parts rfl
      rw [List.mem_append, not_or] at kept
      refine Or.inr ⟨?_, earlier, before, front, kept.1⟩
      rintro rfl
      exact kept.2 (same ▸ List.mem_singleton_self _)
  · rintro (rfl | ⟨keeps, earlier, later, rfl, kept⟩)
    · exact ⟨actions, [], rfl, by simp⟩
    · refine ⟨earlier, later ++ [action], by simp, ?_⟩
      simp [kept, keeps.symm]

namespace Ledger

def alone (thread : ThreadId) (actions : List Action) : Ledger :=
  empty.replayed (actions.map fun action => (thread, action))

variable {thread owner : ThreadId} {resource : Resource} {actions : List Action}

theorem alone_concat (thread : ThreadId) (actions : List Action) (action : Action) :
    alone thread (actions ++ [action]) = (alone thread actions).step thread action := by
  rw [alone, List.map_append, replayed_append]
  rfl

theorem owner_of_alone : (alone thread actions).ownerOf? resource = some owner ↔
    owner = thread ∧ Unreleased resource actions := by
  induction actions using List.reverseRecOn generalizing owner with
  | nil =>
      constructor
      · intro held
        cases held
      · rintro ⟨_, unreleased⟩
        simpa using unreleased.mem
  | append_singleton actions action induction =>
      rw [alone_concat, owner_of_step, unreleased_concat_iff]
      by_cases released : action = .unlock resource
      · simp [released]
      · by_cases locked : action = .lock resource
        · rw [if_neg released, if_pos locked, Option.or_eq_some_iff, induction]
          constructor
          · rintro (⟨own, _⟩ | ⟨_, own⟩)
            · exact ⟨own, Or.inl locked⟩
            · exact ⟨(Option.some.inj own).symm, Or.inl locked⟩
          · rintro ⟨rfl, _⟩
            cases held : (alone owner actions).ownerOf? resource with
            | none => exact Or.inr ⟨rfl, rfl⟩
            | some holder =>
                obtain ⟨_, unreleased⟩ := induction.mp held
                exact Or.inl ⟨rfl, unreleased⟩
        · rw [if_neg released, if_neg locked, induction]
          simp [released, locked]

theorem is_held_alone : (alone thread actions).isHeld resource = true ↔
    Unreleased resource actions := by
  rw [isHeld, Option.isSome_iff_exists]
  simp only [owner_of_alone, exists_eq_left]

theorem on_cycle_alone : (alone thread actions).OnCycle owner ↔
    owner = thread ∧ Unreleased thread.asResource actions := by
  constructor
  · intro cycle
    obtain ⟨⟨resource, holder⟩, entry, rfl⟩ := List.mem_map.mp cycle.mem_owners
    obtain ⟨same, _⟩ := owner_of_alone.mp (owner_of_eq_some_iff.mpr entry)
    change holder = thread at same
    cases step : (alone thread actions).successor? holder with
    | none => exact absurd cycle.never_stops (not_never_stops_of_no_successor step)
    | some next =>
        rw [same] at step
        exact ⟨same, (owner_of_alone.mp step).2⟩
  · rintro ⟨rfl, unreleased⟩
    refine ⟨1, Nat.one_pos, ?_⟩
    rw [steps_from_one]
    exact owner_of_alone.mpr ⟨rfl, unreleased⟩

theorem cycle_alone : (alone thread actions).cycle? = some owner ↔
    owner = thread ∧ Unreleased thread.asResource actions := by
  rw [← on_cycle_alone]
  constructor
  · exact on_cycle_of_cycle
  · intro cycle
    cases found : (alone thread actions).cycle? with
    | none => exact absurd cycle (cycle_eq_none_iff.mp found owner)
    | some named =>
        rw [(on_cycle_alone.mp cycle).1, (on_cycle_alone.mp (on_cycle_of_cycle found)).1]

theorem eq_empty_of_free {ledger : Ledger} (free : ∀ resource, ledger.ownerOf? resource = none) :
    ledger = empty :=
  ext_owner_of free

end Ledger

namespace Simulation

variable {simulation : Simulation} {thread : ThreadId} {actions : List Action}

theorem alone_of_mem_replays (nothing : simulation.ledger = Ledger.empty) {replay : Replay}
    (member : replay ∈ simulation.replays thread actions) :
    ∃ earlier later, actions = earlier ++ replay.action :: later ∧
      replay.after.ledger = Ledger.alone thread (earlier ++ [replay.action]) := by
  obtain ⟨earlier, later, parts, ledger⟩ := split_of_mem_replays member
  refine ⟨earlier, later, parts, ?_⟩
  rw [Replay.ledger_after, thread_of_mem_replays member, ledger, nothing, Ledger.alone_concat]
  rfl

/-- A run that starts from nothing reports its own thread if it locks the resource that is spelled
like it, and otherwise nothing. -/
theorem find_some_found_alone (nothing : simulation.ledger = Ledger.empty) (thread : ThreadId)
    (actions : List Action) :
    (simulation.replays thread actions).findSome? Replay.found =
      if .lock thread.asResource ∈ actions then some thread else none := by
  cases result : (simulation.replays thread actions).findSome? Replay.found with
  | some named =>
      obtain ⟨replay, member, found⟩ := List.exists_of_findSome?_eq_some result
      obtain ⟨earlier, later, parts, ledger⟩ := alone_of_mem_replays nothing member
      rw [Replay.found_eq, ledger, Ledger.cycle_alone] at found
      have locks : .lock thread.asResource ∈ actions := by
        rw [parts, ← List.singleton_append, ← List.append_assoc]
        exact List.mem_append_left later found.2.mem
      rw [if_pos locks, found.1]
  | none =>
      rw [List.findSome?_eq_none_iff] at result
      rw [if_neg]
      intro locks
      obtain ⟨earlier, later, rfl⟩ := List.append_of_mem locks
      obtain ⟨replay, position, action, before⟩ :=
        get_elem_replays simulation thread earlier (.lock thread.asResource) later
      have member := List.mem_of_getElem? position
      have acyclic := Replay.found_eq_none_iff.mp (result replay member) thread
      apply acyclic
      rw [Replay.ledger_after, thread_of_mem_replays member, action, before, nothing]
      change ((Ledger.alone thread earlier).step thread (.lock thread.asResource)).OnCycle thread
      rw [← Ledger.alone_concat, Ledger.on_cycle_alone]
      exact ⟨rfl, unreleased_concat_iff.mpr (Or.inl rfl)⟩

end Simulation

end LockExplorer
