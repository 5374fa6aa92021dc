import LockExplorer.Proofs.Orderings.Cursor

/-!
# The enumeration follows the swap recursion

The recursion is first written as it runs on one array: exchange, recurse, exchange back, and emit a
copy of the array at each leaf. Since every exchange is taken back, this emits exactly the
arrangements that the plain recursion lists. The leaf with a given index is the one whose path is
spelled by the digits of that index, and this is where the enumeration's cursor stands.

The recursion moves items by their positions and never looks at them. Relabelling the items
therefore relabels the orderings, in the same sequence and also where labels coincide.
-/

namespace LockExplorer

namespace SwapRecursion

variable {α : Type}

/-! ## The recursion in place -/

/-- The one array that the recursion works on, and copies of it that were emitted so far. -/
structure Emission (α : Type) (size : Nat) where
  items : Vector α size
  emitted : List (List α)

namespace Emission

variable {size : Nat}

def exchange (emission : Emission α size) (position index : Nat) : Emission α size :=
  { emission with items := emission.items.swapIfInBounds position index }

def emit (emission : Emission α size) : Emission α size :=
  { emission with emitted := emission.emitted ++ [emission.items.toList] }

/-- Exchanges each index from a position on into it, goes on behind it, and exchanges back. -/
def emitFrom (emission : Emission α size) (position : Nat) : Emission α size :=
  if position + 1 < size then
    (List.range' position (size - position)).foldl
      (fun current index =>
        ((current.exchange position index).emitFrom (position + 1)).exchange position index)
      emission
  else emission.emit
termination_by size - position

end Emission

def emitted (items : List α) : List (List α) :=
  (Emission.emitFrom ⟨⟨items.toArray, List.size_toArray⟩, []⟩ 0).emitted

namespace Emission

variable {size : Nat}

/-- The recursion leaves the array as it found it and emits what the plain recursion lists. -/
theorem emit_from_eq (emission : Emission α size) (position : Nat) :
    emission.emitFrom position =
      ⟨emission.items, emission.emitted ++
        (arrangementsFrom emission.items.toArray position).map Array.toList⟩ := by
  induction distance : size - position generalizing emission position with
  | zero =>
      rw [emitFrom, if_neg (by omega), arrangementsFrom, if_neg]
      · rfl
      · rw [Vector.size_toArray]
        omega
  | succ gap induction =>
      rw [emitFrom, arrangementsFrom, Vector.size_toArray]
      by_cases inner : position + 1 < size
      · rw [if_pos inner, if_pos inner]
        generalize List.range' position (size - position) = indices
        induction indices generalizing emission with
        | nil => simp
        | cons index indices rest =>
            have step : ((emission.exchange position index).emitFrom (position + 1)).exchange
                position index = ⟨emission.items, emission.emitted ++ (arrangementsFrom
                  (emission.items.toArray.swapIfInBounds position index)
                  (position + 1)).map Array.toList⟩ := by
              rw [induction _ _ (by omega)]
              simp only [exchange, Vector.toArray_swapIfInBounds, mk.injEq, and_true]
              apply Vector.toArray_inj.mp
              simp only [Vector.toArray_swapIfInBounds, Orderings.swap_if_in_bounds_twice]
            rw [List.foldl_cons, step, rest]
            simp
      · rw [if_neg inner, if_neg inner]
        rfl

end Emission

theorem emitted_eq_orderings (items : List α) : emitted items = orderings items := by
  rw [emitted, Emission.emit_from_eq, List.nil_append, orderings]

/-! ## Leaves and their indices -/

theorem length_arrangements_from (items : Array α) (position : Nat) :
    (arrangementsFrom items position).length = (items.size - position).factorial := by
  induction distance : items.size - position generalizing items position with
  | zero =>
      rw [arrangementsFrom, if_neg (by omega)]
      rfl
  | succ gap induction =>
      rw [arrangementsFrom]
      split
      · next inner =>
          have block : ∀ index, (arrangementsFrom (items.swapIfInBounds position index)
              (position + 1)).length = gap.factorial := by
            intro index
            apply induction
            rw [Array.size_swapIfInBounds]
            omega
          rw [List.length_flatMap, distance, Nat.factorial_succ]
          simp [block]
      · next outer =>
          have last : gap = 0 := by omega
          rw [last]
          rfl

theorem get_elem_flat_map_block {Block Entry : Type} {blocks : List Block}
    {content : Block → List Entry} {size number offset : Nat} {block : Block} {entry : Entry}
    (uniform : ∀ block ∈ blocks, (content block).length = size)
    (numbered : blocks[number]? = some block) (inside : (content block)[offset]? = some entry) :
    (blocks.flatMap content)[number * size + offset]? = some entry := by
  induction blocks generalizing number with
  | nil => simp at numbered
  | cons first blocks induction =>
      have firstSize : (content first).length = size := uniform first (by simp)
      rw [List.flatMap_cons]
      cases number with
      | zero =>
          have same : first = block := by simpa using numbered
          rw [Nat.zero_mul, Nat.zero_add, List.getElem?_append_left]
          · rw [same, inside]
          · rw [same]
            exact (List.getElem?_eq_some_iff.mp inside).1
      | succ number =>
          have later : blocks[number]? = some block := by simpa using numbered
          have skipped : (number + 1) * size + offset = size + (number * size + offset) := by
            rw [Nat.succ_mul]
            omega
          rw [skipped, List.getElem?_append_right (by omega), firstSize, Nat.add_sub_cancel_left]
          exact induction (fun other member => uniform other (by simp [member])) later

/-- Below the node that the first choices lead to, the remaining digits lead to the leaf of all
choices. -/
theorem get_elem_arrangements_from (items : Array α) {choice : Nat → Nat}
    (lower : ∀ position < items.size, position ≤ choice position)
    (upper : ∀ position < items.size, choice position < items.size) {position rest : Nat}
    (bounded : position ≤ items.size)
    (digits : Orderings.rankBefore items.size choice position + rest =
      Orderings.rankBefore items.size choice items.size) :
    (arrangementsFrom (Orderings.exchangedBefore items choice position) position)[rest]? =
      some (Orderings.exchangedBefore items choice items.size) := by
  induction distance : items.size - position generalizing position rest with
  | zero =>
      have last : position = items.size := by omega
      have noneLeft : rest = 0 := by
        rw [last] at digits
        omega
      rw [arrangementsFrom, Orderings.size_exchanged_before, if_neg (by omega), noneLeft, last]
      rfl
  | succ gap induction =>
      have inside : position < items.size := by omega
      have least := lower position inside
      have most := upper position inside
      have digit := Orderings.rank_before_succ items.size choice position
      have weight : items.size - 1 - position = gap := by omega
      -- The block is chosen by the digit of this position, the place in it by the digits behind.
      have behind : Orderings.rankBefore items.size choice (position + 1) ≤
          Orderings.rankBefore items.size choice items.size :=
        Orderings.rank_before_le items.size choice inside
      obtain ⟨tail, tailDigits⟩ := Nat.exists_eq_add_of_le behind
      have split : rest = (choice position - position) * gap.factorial + tail := by
        rw [weight] at digit
        omega
      have below := induction (by omega) tailDigits.symm (by omega)
      rw [arrangementsFrom, Orderings.size_exchanged_before]
      by_cases inner : position + 1 < items.size
      · rw [if_pos inner, split]
        have numbered : (List.range' position (items.size - position))[
            choice position - position]? = some (choice position) := by
          rw [List.getElem?_range' (by omega), Nat.one_mul, Nat.add_sub_cancel' least]
        refine get_elem_flat_map_block ?_ numbered below
        intro index _
        rw [length_arrangements_from, Array.size_swapIfInBounds, Orderings.size_exchanged_before]
        congr 1
        omega
      · have own : choice position = position := by omega
        have noneLeft : rest = 0 := by
          have last : position + 1 = items.size := by omega
          rw [last] at tailDigits
          rw [split, own, Nat.sub_self, Nat.zero_mul]
          omega
        have last : items.size = position + 1 := by omega
        rw [if_neg inner, noneLeft, last, Orderings.exchangedBefore, own,
          Orderings.swap_if_in_bounds_self]
        rfl

theorem length_orderings (items : List α) :
    (orderings items).length = items.length.factorial := by
  rw [orderings, List.length_map, length_arrangements_from, List.size_toArray, Nat.sub_zero]

theorem get_elem_orderings_of_settled {items : List α} {state : Orderings α} {index : Nat}
    (settled : Orderings.Settled items state index) :
    (orderings items)[index]? = some state.items.toList := by
  have digits : Orderings.rankBefore items.length state.exchanged 0 + index =
      Orderings.rankBefore items.length state.exchanged items.length := by
    rw [settled.ranked]
    simp [Orderings.rankBefore]
  have leaf : (arrangementsFrom items.toArray 0)[index]? = some state.items := by
    rw [settled.arranged]
    exact get_elem_arrangements_from items.toArray settled.lower settled.upper (Nat.zero_le _)
      digits
  rw [orderings, List.getElem?_map, leaf, Option.map_some]

/-! ## Relabelled items -/

section

variable {β : Type}

theorem swap_if_in_bounds_map (relabel : α → β) (items : Array α) (position index : Nat) :
    (items.map relabel).swapIfInBounds position index =
      (items.swapIfInBounds position index).map relabel := by
  apply Array.ext
  · simp
  · intro place _ _
    simp only [Array.getElem_swapIfInBounds, Array.getElem_map, Array.size_map]
    split_ifs <;> rfl

theorem arrangements_from_map (relabel : α → β) (items : Array α) (position : Nat) :
    arrangementsFrom (items.map relabel) position =
      (arrangementsFrom items position).map (Array.map relabel) := by
  fun_induction arrangementsFrom items position with
  | case1 items position inner induction =>
      rw [arrangementsFrom, Array.size_map, if_pos inner, List.map_flatMap]
      apply List.flatMap_congr
      intro index _
      rw [swap_if_in_bounds_map]
      exact induction index
  | case2 items position outer =>
      rw [arrangementsFrom, Array.size_map, if_neg outer]
      rfl

theorem orderings_map (relabel : α → β) (items : List α) :
    orderings (items.map relabel) = (orderings items).map (List.map relabel) := by
  rw [orderings, orderings, ← List.map_toArray, arrangements_from_map, List.map_map, List.map_map]
  apply List.map_congr_left
  intro arrangement _
  exact Array.toList_map

end

end SwapRecursion

namespace Orderings

variable {α : Type}

/-! ## The results of all calls -/

/-- Successive calls give the listed orderings in order, and all calls after them give nothing. -/
def Yields (orderings : Orderings α) (sequence : List (List α)) : Prop :=
  ∀ calls, (orderings.after calls).next.1 = sequence[calls]?

theorem Yields.next_eq_none {orderings : Orderings α} (yields : orderings.Yields []) :
    orderings.next.1 = none :=
  yields 0

theorem Yields.next_eq_some {orderings : Orderings α} {first : List α} {later : List (List α)}
    (yields : orderings.Yields (first :: later)) :
    orderings.next.1 = some first ∧ orderings.next.2.Yields later :=
  ⟨yields 0, fun calls => yields (calls + 1)⟩

theorem Reached.next_fst {items : List α} {orderings : Orderings α} {calls : Nat}
    (reached : Reached items calls orderings) :
    orderings.next.1 = (SwapRecursion.orderings items)[calls]? := by
  rcases reached.next_spec with ⟨given, _, settled⟩ | ⟨given, _, _, passed⟩
  · rw [given, SwapRecursion.get_elem_orderings_of_settled settled]
  · rw [given, List.getElem?_eq_none]
    rw [SwapRecursion.length_orderings]
    exact passed

theorem yields_of_list (items : List α) :
    (ofList items).Yields (SwapRecursion.orderings items) := by
  intro calls
  exact (reached_after items calls).next_fst

/-- Whatever the number of earlier calls, a call gives what the recursion emits in that place, and
nothing once the recursion has emitted everything. -/
theorem next_after_ofList (items : List α) (calls : Nat) :
    ((ofList items).after calls).next.1 = (SwapRecursion.emitted items)[calls]? := by
  rw [SwapRecursion.emitted_eq_orderings]
  exact yields_of_list items calls

example : SwapRecursion.emitted [1, 2, 3] =
    [[1, 2, 3], [1, 3, 2], [2, 1, 3], [2, 3, 1], [3, 2, 1], [3, 1, 2]] := by cbv

end Orderings

end LockExplorer
