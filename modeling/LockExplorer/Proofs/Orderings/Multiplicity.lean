import LockExplorer.Proofs.Orderings.FirstItem
import Mathlib.Algebra.Order.BigOperators.Ring.Finset
import Mathlib.Data.List.Perm.Subperm

/-!
# How often each ordering is given

Every rearrangement of the items is given, and nothing else. Items that are equal can change places
unnoticed, so a rearrangement is given once for every way to permute the equal items among
themselves; with different items only, that is once.
-/

namespace LockExplorer

namespace SwapRecursion

variable {α : Type} [DecidableEq α]

/-- In how many ways the items can change places without a visible difference. -/
def symmetries (items : List α) : Nat :=
  ∏ item ∈ items.toFinset, (items.count item).factorial

theorem symmetries_perm {left right : List α} (same : left.Perm right) :
    symmetries left = symmetries right := by
  unfold symmetries
  rw [List.toFinset_eq_of_perm _ _ same]
  apply Finset.prod_congr rfl
  intro item _
  rw [same.count_eq]

theorem symmetries_cons (first : α) (rest : List α) :
    symmetries (first :: rest) = (rest.count first + 1) * symmetries rest := by
  have member : first ∈ (first :: rest).toFinset := by simp
  -- The first item may be new to the rest; it then counts zero times there and changes nothing.
  have widened : symmetries rest =
      ∏ item ∈ (first :: rest).toFinset, (rest.count item).factorial := by
    rw [symmetries, List.toFinset_cons, Finset.prod_insert_of_eq_one_if_notMem]
    intro absent
    rw [List.count_eq_zero_of_not_mem (by simpa using absent), Nat.factorial_zero]
  have others : ∏ item ∈ (first :: rest).toFinset.erase first,
        ((first :: rest).count item).factorial =
      ∏ item ∈ (first :: rest).toFinset.erase first, (rest.count item).factorial := by
    apply Finset.prod_congr rfl
    intro item inside
    rw [List.count_cons_of_ne (Finset.ne_of_mem_erase inside).symm]
  rw [widened, symmetries, ← Finset.mul_prod_erase _ _ member, others,
    ← Finset.mul_prod_erase _ (fun item => (rest.count item).factorial) member,
    List.count_cons_self, Nat.factorial_succ, Nat.mul_assoc]

theorem count_map_cons (arrangements : List (List α)) (first item : α) (others : List α) :
    (arrangements.map (first :: ·)).count (item :: others) =
      if first = item then arrangements.count others else 0 := by
  by_cases same : first = item
  · rw [if_pos same, same]
    exact List.count_map_of_injective _ _ List.cons_injective _
  · rw [if_neg same, List.count_eq_zero]
    intro member
    obtain ⟨_, _, equal⟩ := List.mem_map.mp member
    exact same (List.cons.inj equal).1

theorem sum_map_occurrences {Choice : Type} (choices : List Choice) (value : Choice → α) (item : α)
    (amount : Nat) :
    (choices.map fun choice => if value choice = item then amount else 0).sum =
      (choices.map value).count item * amount := by
  induction choices with
  | nil => simp
  | cons choice choices induction =>
      rw [List.map_cons, List.sum_cons, induction, List.map_cons, List.count_cons]
      by_cases same : value choice = item
      · simp [same, Nat.add_mul, Nat.add_comm]
      · simp [same]

/-- What one first item contributes: as many choices as the item occurs, and behind each of them the
rearrangements of what is left. -/
theorem count_mul_behind (items : List α) (item : α) (others : List α) :
    (items.count item *
        if others.Perm (items.erase item) then symmetries (items.erase item) else 0) =
      if (item :: others).Perm items then symmetries items else 0 := by
  by_cases member : item ∈ items
  · have split := List.perm_cons_erase member
    have behind : (item :: others).Perm items ↔ others.Perm (items.erase item) := by
      rw [List.cons_perm_iff_perm_erase]
      exact and_iff_right member
    rw [symmetries_perm split, symmetries_cons, split.count_eq item, List.count_cons_self]
    simp only [behind]
    split <;> simp
  · have apart : ¬ (item :: others).Perm items := by
      intro same
      exact member (same.subset List.mem_cons_self)
    rw [if_neg apart, List.count_eq_zero_of_not_mem member, Nat.zero_mul]

theorem count_choice {first : α} {rest : List α} {choice : α × List α}
    (member : choice ∈ choices first rest) (item : α) (others : List α)
    (behind : (orderings choice.2).count others =
      if others.Perm choice.2 then symmetries choice.2 else 0) :
    ((orderings choice.2).map (choice.1 :: ·)).count (item :: others) =
      if choice.1 = item then
        if others.Perm ((first :: rest).erase item) then
          symmetries ((first :: rest).erase item)
        else 0
      else 0 := by
  rw [count_map_cons, behind]
  by_cases chosen : choice.1 = item
  · have moved := perm_of_mem_choices member
    rw [chosen] at moved
    have left : choice.2.Perm ((first :: rest).erase item) :=
      (List.cons_perm_iff_perm_erase.mp moved).2
    rw [if_pos chosen, if_pos chosen, symmetries_perm left]
    simp only [left.congr_right]
  · rw [if_neg chosen, if_neg chosen]

theorem count_orderings (items arrangement : List α) :
    (orderings items).count arrangement =
      if arrangement.Perm items then symmetries items else 0 := by
  induction length : items.length generalizing items arrangement with
  | zero =>
      have empty : items = [] := List.length_eq_zero_iff.mp length
      rw [empty, orderings_nil]
      cases arrangement <;> simp [symmetries]
  | succ size induction =>
      obtain ⟨first, rest, rfl⟩ := List.exists_cons_of_length_eq_add_one length
      rw [orderings_cons]
      cases arrangement with
      | nil =>
          rw [if_neg (by simp), List.count_eq_zero]
          simp
      | cons item others =>
          have shorter : ∀ choice ∈ choices first rest, choice.2.length = size := by
            intro choice member
            have same := (perm_of_mem_choices member).length_eq
            simp only [List.length_cons] at same length
            omega
          have contributions : (choices first rest).map (List.count (item :: others) ∘
                fun choice => (orderings choice.2).map (choice.1 :: ·)) =
              (choices first rest).map fun choice =>
                if choice.1 = item then
                  if others.Perm ((first :: rest).erase item) then
                    symmetries ((first :: rest).erase item)
                  else 0
                else 0 := by
            apply List.map_congr_left
            intro choice member
            exact count_choice member item others (induction _ _ (shorter choice member))
          rw [List.count_flatMap, contributions, sum_map_occurrences, map_fst_choices,
            count_mul_behind]

theorem symmetries_of_nodup {items : List α} (distinct : items.Nodup) : symmetries items = 1 := by
  apply Finset.prod_eq_one
  intro item member
  rw [List.count_eq_one_of_mem distinct (List.mem_toFinset.mp member), Nat.factorial_one]

end SwapRecursion

theorem SwapRecursion.mem_orderings_iff {α : Type} {items arrangement : List α} :
    arrangement ∈ SwapRecursion.orderings items ↔ arrangement.Perm items := by
  classical
  rw [← List.count_pos_iff, SwapRecursion.count_orderings]
  constructor
  · intro positive
    by_contra apart
    rw [if_neg apart] at positive
    exact Nat.lt_irrefl 0 positive
  · intro same
    rw [if_pos same]
    exact Finset.prod_pos fun item _ => Nat.factorial_pos _

namespace Orderings

variable {α : Type} [DecidableEq α]

/-- The enumeration gives as many orderings as there are ways to arrange the items. A list is among
them exactly when it rearranges the items, as often as the equal items can change places. -/
theorem ofList_exhaustive (items : List α) :
    ∃ sequence, (ofList items).Yields sequence ∧
      sequence.length = items.length.factorial ∧
      (∀ arrangement, sequence.count arrangement =
        if arrangement.Perm items then
          ∏ item ∈ items.toFinset, (items.count item).factorial
        else 0) ∧
      (items.Nodup → ∀ arrangement, arrangement.Perm items → sequence.count arrangement = 1) := by
  refine ⟨SwapRecursion.orderings items, yields_of_list items,
    SwapRecursion.length_orderings items, SwapRecursion.count_orderings items, ?_⟩
  intro distinct arrangement same
  rw [SwapRecursion.count_orderings, if_pos same, SwapRecursion.symmetries_of_nodup distinct]

theorem ofList_exhaustive_three :
    [1, 2, 3].Nodup ∧ ∃ sequence, (ofList [1, 2, 3]).Yields sequence ∧
      sequence.length = 6 ∧ sequence.count [3, 1, 2] = 1 := by
  obtain ⟨sequence, yields, length, _, once⟩ := ofList_exhaustive [1, 2, 3]
  exact ⟨by decide, sequence, yields, length, once (by decide) [3, 1, 2] (by decide)⟩

example : (SwapRecursion.orderings ["a", "b", "a"]).count ["a", "a", "b"] = 2 := by cbv

end Orderings

end LockExplorer
