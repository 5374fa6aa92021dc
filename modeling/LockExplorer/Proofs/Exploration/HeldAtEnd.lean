import LockExplorer.Proofs.Exploration.Sequence

/-!
# What is held at the end

Nothing is cleared between orderings, yet little is carried over. Every ordering runs every thread,
so a resource that some thread unlocks is decided by the last ordering alone. A resource that nobody
unlocks stays with the first thread that locks it, and the first ordering is the input itself.
-/

namespace LockExplorer

namespace Exploration

variable {threads : List Thread} {limit : Option UInt64}

theorem mem_history_of_iff {ordering : List Thread} {action : Action} :
    (∃ entry ∈ historyOf ordering, entry.2 = action) ↔
      ∃ thread ∈ ordering, action ∈ thread.actions := by
  simp only [historyOf, Thread.history, List.mem_flatMap, List.mem_map]
  constructor
  · rintro ⟨_, ⟨thread, member, performed, inside, rfl⟩, rfl⟩
    exact ⟨thread, member, inside⟩
  · rintro ⟨thread, member, inside⟩
    exact ⟨(thread.id, action), ⟨thread, member, action, inside, rfl⟩, rfl⟩

theorem first_locker_history (thread : Thread) (resource : Resource) :
    Ledger.firstLocker? resource thread.history =
      if Action.lock resource ∈ thread.actions then some thread.id else none :=
  Ledger.first_locker_own resource thread.id thread.actions

theorem first_locker_history_of (ordering : List Thread) (resource : Resource) :
    Ledger.firstLocker? resource (historyOf ordering) =
      (ordering.find? fun thread => decide (Action.lock resource ∈ thread.actions)).map
        Thread.id := by
  induction ordering with
  | nil => rfl
  | cons thread later induction =>
      change Ledger.firstLocker? resource (thread.history ++ historyOf later) = _
      rw [Ledger.first_locker_append, induction, first_locker_history, List.find?_cons]
      by_cases locks : Action.lock resource ∈ thread.actions
      · simp [locks]
      · simp [locks]

theorem mem_flat_map_history_of_iff {sequence : List (List Thread)} {action : Action}
    (rearranged : ∀ ordering ∈ sequence, ordering.Perm threads) (someOrdering : sequence ≠ []) :
    (∃ entry ∈ sequence.flatMap historyOf, entry.2 = action) ↔
      ∃ thread ∈ threads, action ∈ thread.actions := by
  constructor
  · rintro ⟨entry, member, performs⟩
    obtain ⟨ordering, listed, inside⟩ := List.mem_flatMap.mp member
    obtain ⟨thread, runs, holds⟩ := mem_history_of_iff.mp ⟨entry, inside, performs⟩
    exact ⟨thread, (rearranged ordering listed).subset runs, holds⟩
  · rintro ⟨thread, member, holds⟩
    obtain ⟨ordering, listed⟩ := List.exists_mem_of_ne_nil sequence someOrdering
    have runs := (rearranged ordering listed).symm.subset member
    obtain ⟨entry, inside, performs⟩ := mem_history_of_iff.mpr ⟨thread, runs, holds⟩
    exact ⟨entry, List.mem_flatMap.mpr ⟨ordering, listed, inside⟩, performs⟩

/-- Further orderings of the same threads add no locker that the first ordering lacks. -/
theorem first_locker_flat_map_history_of {later : List (List Thread)}
    (rearranged : ∀ ordering ∈ threads :: later, ordering.Perm threads) (resource : Resource) :
    Ledger.firstLocker? resource ((threads :: later).flatMap historyOf) =
      Ledger.firstLocker? resource (historyOf threads) := by
  cases found : Ledger.firstLocker? resource (historyOf threads) with
  | none =>
      rw [Ledger.first_locker_eq_none_iff, mem_history_of_iff] at found
      rw [Ledger.first_locker_eq_none_iff,
        mem_flat_map_history_of_iff rearranged (List.cons_ne_nil _ _)]
      exact found
  | some locker =>
      rw [List.flatMap_cons, Ledger.first_locker_append, found, Option.some_or]

/-! ## The orderings that are run -/

theorem perm_of_mem_orderings_within {ordering : List Thread}
    (member : ordering ∈ orderingsWithin threads limit) : ordering.Perm threads :=
  SwapRecursion.mem_orderings_iff.mp (List.mem_of_mem_take member)

theorem orderings_within_eq_cons (someOrdering : orderingsWithin threads limit ≠ []) :
    ∃ later, orderingsWithin threads limit = threads :: later := by
  obtain ⟨first, later, parts⟩ := List.exists_cons_of_ne_nil someOrdering
  have allowed : budget limit ≠ 0 := by
    intro nothing
    apply someOrdering
    rw [orderingsWithin, nothing, List.take_zero]
  have head : (orderingsWithin threads limit).head? = some threads := by
    rw [orderingsWithin, List.head?_take, if_neg allowed, SwapRecursion.head_orderings]
  rw [parts] at head
  cases head
  exact ⟨later, parts⟩

theorem next_after_of_get_last {last : List Thread}
    (final : (orderingsWithin threads limit).getLast? = some last) :
    ((Orderings.ofList threads).after ((orderingsWithin threads limit).length - 1)).next.1 =
      some last := by
  have someOrdering : 0 < (orderingsWithin threads limit).length :=
    List.length_pos_of_mem (List.mem_of_getLast? final)
  have allowed : (orderingsWithin threads limit).length ≤ budget limit :=
    List.length_take_le _ _
  rw [List.getLast?_eq_getElem?] at final
  rw [Orderings.yields_of_list, ← final]
  exact (List.getElem?_take_of_lt (by omega)).symm

/-- When all orderings are run, the last of them is the input with its last thread moved to the
front. -/
theorem get_last_orderings_within_of_length {others : List Thread} {final : Thread}
    (parts : threads = others ++ [final])
    (whole : (orderingsWithin threads limit).length = threads.length.factorial) :
    (orderingsWithin threads limit).getLast? = some (final :: others) := by
  have everything : orderingsWithin threads limit = SwapRecursion.orderings threads := by
    rw [orderingsWithin, List.length_take, SwapRecursion.length_orderings] at whole
    rw [orderingsWithin, List.take_of_length_le]
    rw [SwapRecursion.length_orderings]
    omega
  rw [everything, parts, SwapRecursion.get_last_orderings]

/-- A resource that some thread unlocks belongs, after all orderings, to whom the last one gives it;
any other to the first thread of the input that locks it. -/
theorem owner_of_replayed_orderings_within {earlier : List (List Thread)} {last : List Thread}
    (parts : orderingsWithin threads limit = earlier ++ [last]) (resource : Resource) :
    (Ledger.empty.replayed ((orderingsWithin threads limit).flatMap historyOf)).ownerOf? resource =
      if ∃ thread ∈ threads, Action.unlock resource ∈ thread.actions then
        Ledger.firstLocker? resource (Ledger.sinceRelease resource (historyOf last))
      else (threads.find? fun thread => decide (Action.lock resource ∈ thread.actions)).map
        Thread.id := by
  have someOrdering : orderingsWithin threads limit ≠ [] := by
    rw [parts]
    simp
  by_cases unlocked : ∃ thread ∈ threads, Action.unlock resource ∈ thread.actions
  · have member : last ∈ orderingsWithin threads limit := by
      rw [parts]
      simp
    have lastOrdering := perm_of_mem_orderings_within member
    have released : ∃ entry ∈ historyOf last, entry.2 = .unlock resource := by
      obtain ⟨thread, member, unlocks⟩ := unlocked
      exact mem_history_of_iff.mpr ⟨thread, lastOrdering.symm.subset member, unlocks⟩
    rw [if_pos unlocked, parts, List.flatMap_append, Ledger.replayed_append,
      List.flatMap_singleton, Ledger.owner_of_replayed, if_pos released]
  · obtain ⟨later, first⟩ := orderings_within_eq_cons someOrdering
    have rearranged : ∀ ordering ∈ threads :: later, ordering.Perm threads := by
      intro ordering member
      rw [← first] at member
      exact perm_of_mem_orderings_within member
    have kept : ¬ ∃ entry ∈ (threads :: later).flatMap historyOf, entry.2 = .unlock resource := by
      rw [mem_flat_map_history_of_iff rearranged (List.cons_ne_nil _ _)]
      exact unlocked
    rw [if_neg unlocked, first, Ledger.owner_of_replayed, if_neg kept, Ledger.owner_of_empty,
      Option.none_or, first_locker_flat_map_history_of rearranged, first_locker_history_of]

/-- The owners at the end, for any threads and any limit that lets an ordering run. The ordering
that is run last decides each resource that some thread unlocks, whatever happened before; each
other resource is with the first thread of the input that locks it. -/
theorem ownerOf?_explore (threads : List Thread) (limit : Option UInt64)
    (ran : 0 < (explore threads limit).explored) :
    ∃ last,
      ((Orderings.ofList threads).after ((explore threads limit).explored - 1)).next.1 = some last ∧
      (explore threads limit).orderings.back? = some (last.map Thread.id) ∧
      (∀ resource, (explore threads limit).simulation.ledger.ownerOf? resource =
        if ∃ thread ∈ threads, Action.unlock resource ∈ thread.actions then
          Ledger.firstLocker? resource (Ledger.sinceRelease resource (historyOf last))
        else (threads.find? fun thread => decide (Action.lock resource ∈ thread.actions)).map
          Thread.id) ∧
      ∀ others final, threads = others ++ [final] →
        (explore threads limit).explored = threads.length.factorial → last = final :: others := by
  obtain ⟨explored, orderings, ledger⟩ := explore_spec threads limit
  rw [explored] at ran ⊢
  have someOrdering := List.length_pos_iff.mp ran
  have parts := (List.dropLast_append_getLast someOrdering).symm
  have final := List.getLast?_eq_some_getLast someOrdering
  refine ⟨_, next_after_of_get_last final, ?_, ?_, ?_⟩
  · rw [orderings, List.back?_toArray, List.getLast?_map, final, Option.map_some]
  · intro resource
    rw [ledger]
    exact owner_of_replayed_orderings_within parts resource
  · intro others moved split whole
    rw [get_last_orderings_within_of_length split whole] at final
    exact (Option.some.inj final).symm

/-- One thread never gives back what another one takes and frees. -/
def leaky : List Thread :=
  [{ id := ⟨"Holder"⟩, actions := [.lock ⟨"R1"⟩] },
    { id := ⟨"Worker"⟩, actions := [.lock ⟨"R1"⟩, .unlock ⟨"R1"⟩] }]

theorem ownerOf?_explore_leaky :
    0 < (explore leaky none).explored ∧
      (explore leaky none).simulation.ledger.ownerOf? ⟨"R1"⟩ = some ⟨"Holder"⟩ := by
  have both : (explore leaky none).explored = 2 := by
    rw [(explore_spec leaky none).1, orderingsWithin, List.length_take,
      SwapRecursion.length_orderings]
    decide
  have ran : 0 < (explore leaky none).explored := by
    rw [both]
    decide
  obtain ⟨last, _, _, owner, rotated⟩ := ownerOf?_explore leaky none ran
  have order := rotated [⟨⟨"Holder"⟩, [.lock ⟨"R1"⟩], 0⟩]
    ⟨⟨"Worker"⟩, [.lock ⟨"R1"⟩, .unlock ⟨"R1"⟩], 0⟩ rfl both
  refine ⟨ran, ?_⟩
  rw [owner, order]
  decide

end Exploration

end LockExplorer
