import LockExplorer.Proofs.Orderings.Refinement

/-!
# Orderings by their first item

The swap recursion read on lists: each item in turn is put first, the former first item takes its
place, and the items behind are ordered in the same way. The input itself comes first, and the input
with its last item moved to the front comes last.
-/

namespace LockExplorer

namespace SwapRecursion

variable {α : Type}

theorem swap_if_in_bounds_behind (first : α) (items : Array α) (position index : Nat) :
    (first :: items.toList).toArray.swapIfInBounds (position + 1) (index + 1) =
      (first :: (items.swapIfInBounds position index).toList).toArray := by
  apply Array.ext
  · simp
  · intro place _ _
    rw [Array.getElem_swapIfInBounds]
    cases place with
    | zero => simp
    | succ place =>
        simp only [List.getElem_toArray, List.getElem_cons_succ, Array.getElem_toList,
          Array.getElem_swapIfInBounds]
        simp

theorem arrangements_from_behind (first : α) (items : Array α) (position : Nat) :
    arrangementsFrom (first :: items.toList).toArray (position + 1) =
      (arrangementsFrom items position).map fun arranged =>
        (first :: arranged.toList).toArray := by
  induction distance : items.size - position generalizing items position with
  | zero =>
      rw [arrangementsFrom, arrangementsFrom, if_neg, if_neg (by omega)]
      · rfl
      · simp only [List.size_toArray, List.length_cons, Array.length_toList]
        omega
  | succ gap induction =>
      have size : (first :: items.toList).toArray.size = items.size + 1 := by simp
      rw [arrangementsFrom, arrangementsFrom, size]
      by_cases inner : position + 1 < items.size
      · have shifted : List.range' (position + 1) (items.size + 1 - (position + 1)) =
            (List.range' position (items.size - position)).map (· + 1) := by
          rw [Nat.add_sub_add_right, List.range'_succ_left]
        rw [if_pos (by omega), if_pos inner, shifted, List.flatMap_map, List.map_flatMap]
        apply List.flatMap_congr
        intro index _
        rw [swap_if_in_bounds_behind]
        apply induction
        rw [Array.size_swapIfInBounds]
        omega
      · rw [if_neg (by omega), if_neg inner]
        rfl

/-- Each item in turn as the first one, with the items then behind it. -/
def choices (first : α) (rest : List α) : List (α × List α) :=
  (first, rest) :: rest.mapIdx fun index item => (item, rest.set index first)

theorem swap_if_in_bounds_first (first : α) (rest : List α) {index : Nat}
    (bounded : index < rest.length) :
    (first :: rest).toArray.swapIfInBounds 0 (index + 1) =
      (rest[index] :: rest.set index first).toArray := by
  apply Array.ext
  · simp
  · intro place _ _
    rw [Array.getElem_swapIfInBounds]
    cases place with
    | zero => simp [bounded]
    | succ place => simp [List.getElem_set, eq_comm]

theorem orderings_nil : orderings ([] : List α) = [[]] := by
  rw [orderings, arrangementsFrom]
  rfl

theorem arrangements_behind_first (first : α) (rest : List α) :
    (arrangementsFrom (first :: rest).toArray 1).map Array.toList =
      (orderings rest).map (first :: ·) := by
  have shifted := arrangements_from_behind first rest.toArray 0
  rw [List.toList_toArray] at shifted
  rw [shifted, orderings, List.map_map, List.map_map]
  rfl

theorem orderings_cons (first : α) (rest : List α) :
    orderings (first :: rest) =
      (choices first rest).flatMap fun choice => (orderings choice.2).map (choice.1 :: ·) := by
  cases rest with
  | nil =>
      rw [orderings, arrangementsFrom]
      simp [choices, orderings_nil]
  | cons second others =>
      have later : ((List.range' 0 (second :: others).length).map fun index =>
            (arrangementsFrom ((first :: second :: others).toArray.swapIfInBounds 0 (index + 1))
              1).map Array.toList) =
          ((second :: others).mapIdx fun index item =>
            (item, (second :: others).set index first)).map fun choice =>
              (orderings choice.2).map (choice.1 :: ·) := by
        apply List.ext_getElem
        · simp
        · intro index bounded _
          have inside : index < (second :: others).length := by simpa using bounded
          rw [List.getElem_map, List.getElem_map, List.getElem_range', List.getElem_mapIdx,
            Nat.zero_add, Nat.one_mul, swap_if_in_bounds_first first _ inside,
            arrangements_behind_first]
      rw [orderings, arrangementsFrom, if_pos (by simp), List.map_flatMap, List.size_toArray,
        Nat.sub_zero, List.length_cons, List.range'_succ, List.range'_succ_left, List.flatMap_cons,
        Orderings.swap_if_in_bounds_self, arrangements_behind_first, choices, List.flatMap_cons,
        List.flatMap_map, List.flatMap_def, later, ← List.flatMap_def]

theorem map_fst_choices (first : α) (rest : List α) :
    (choices first rest).map Prod.fst = first :: rest := by
  rw [choices, List.map_cons]
  congr 1
  apply List.ext_getElem
  · simp
  · intro index _ _
    simp

theorem perm_of_mem_choices {first : α} {rest : List α} {choice : α × List α}
    (member : choice ∈ choices first rest) : (choice.1 :: choice.2).Perm (first :: rest) := by
  rcases List.mem_cons.mp member with same | later
  · rw [same]
  · obtain ⟨index, bounded, same⟩ := List.mem_mapIdx.mp later
    rw [← same]
    have placed := (List.set_perm_cons_eraseIdx bounded first).cons rest[index]
    have taken := (List.getElem_cons_eraseIdx_perm bounded).cons first
    exact placed.trans ((List.Perm.swap _ _ _).trans taken)

theorem choices_concat (first : α) (rest : List α) (last : α) :
    ∃ others, choices first (rest ++ [last]) = others ++ [(last, rest ++ [first])] := by
  refine ⟨(first, rest ++ [last]) :: rest.mapIdx fun index item =>
    (item, (rest ++ [last]).set index first), ?_⟩
  rw [choices, List.mapIdx_concat, List.cons_append, List.set_append_right _ _ (le_refl _)]
  simp

/-! ## The first and the last ordering -/

theorem head_orderings (items : List α) : (orderings items).head? = some items := by
  induction items with
  | nil => rw [orderings_nil, List.head?_cons]
  | cons first rest induction =>
      rw [orderings_cons, choices, List.flatMap_cons, List.head?_append, List.head?_map, induction]
      rfl

theorem get_last_orderings (rest : List α) (last : α) :
    (orderings (rest ++ [last])).getLast? = some (last :: rest) := by
  induction rest generalizing last with
  | nil => simp [orderings_cons, choices, orderings_nil]
  | cons first rest induction =>
      obtain ⟨others, choicesEq⟩ := choices_concat first rest last
      rw [List.cons_append, orderings_cons, choicesEq, List.flatMap_append, List.getLast?_append,
        List.flatMap_singleton, List.getLast?_map, induction]
      rfl

end SwapRecursion

end LockExplorer
