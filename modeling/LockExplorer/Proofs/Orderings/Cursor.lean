import LockExplorer.Orderings
import Mathlib.Algebra.BigOperators.Group.Finset.Basic
import Mathlib.Data.Nat.Factorial.Basic

/-!
# The cursor as a numeral

The cursor of an enumeration is read as a numeral: at each position the digit is the distance to the
index that is exchanged into it, and the weight is the number of ways to order what comes after. One
move adds one to this numeral. A position that has no further index to offer carries, and its
exchange has then been undone, so that running out of positions leaves the items as they were.
-/

namespace LockExplorer

namespace Orderings

variable {α : Type}

def after (orderings : Orderings α) : Nat → Orderings α
  | 0 => orderings
  | calls + 1 => orderings.next.2.after calls

/-- The items after the exchanges at all earlier positions, made from the first position on. -/
def exchangedBefore (items : Array α) (choice : Nat → Nat) : Nat → Array α
  | 0 => items
  | position + 1 =>
      (exchangedBefore items choice position).swapIfInBounds position (choice position)

/-- The part of the numeral that stands before a position. -/
def rankBefore (size : Nat) (choice : Nat → Nat) (position : Nat) : Nat :=
  ∑ earlier ∈ Finset.range position,
    (choice earlier - earlier) * (size - 1 - earlier).factorial

theorem swap_if_in_bounds_self (items : Array α) (position : Nat) :
    items.swapIfInBounds position position = items := by
  apply Array.ext
  · simp
  · intro index _ _
    rw [Array.getElem_swapIfInBounds]
    split <;> simp_all

theorem swap_if_in_bounds_twice (items : Array α) (position index : Nat) :
    (items.swapIfInBounds position index).swapIfInBounds position index = items := by
  rw [Array.swapIfInBounds_def, Array.swapIfInBounds_def]
  split
  · split <;> simp_all [Array.swap_swap]
  · simp_all

theorem size_exchanged_before (items : Array α) (choice : Nat → Nat) (position : Nat) :
    (exchangedBefore items choice position).size = items.size := by
  induction position with
  | zero => rfl
  | succ position induction => rw [exchangedBefore, Array.size_swapIfInBounds, induction]

theorem exchanged_before_congr (items : Array α) {left right : Nat → Nat} {position : Nat}
    (same : ∀ earlier < position, left earlier = right earlier) :
    exchangedBefore items left position = exchangedBefore items right position := by
  induction position with
  | zero => rfl
  | succ position induction =>
      have before := induction fun earlier lower => same earlier (by omega)
      rw [exchangedBefore, exchangedBefore, before, same position (by omega)]

theorem rank_before_congr (size : Nat) {left right : Nat → Nat} {position : Nat}
    (same : ∀ earlier < position, left earlier = right earlier) :
    rankBefore size left position = rankBefore size right position := by
  apply Finset.sum_congr rfl
  intro earlier member
  rw [same earlier (Finset.mem_range.mp member)]

theorem rank_before_succ (size : Nat) (choice : Nat → Nat) (position : Nat) :
    rankBefore size choice (position + 1) =
      rankBefore size choice position +
        (choice position - position) * (size - 1 - position).factorial :=
  Finset.sum_range_succ _ _

theorem rank_before_le (size : Nat) (choice : Nat → Nat) {first last : Nat}
    (ordered : first ≤ last) : rankBefore size choice first ≤ rankBefore size choice last := by
  induction last, ordered using Nat.le_induction with
  | base => exact Nat.le_refl _
  | succ last ordered induction =>
      rw [rank_before_succ]
      omega

/-- Positions that keep their own item neither move anything nor count. -/
theorem idle_positions (items : Array α) (size : Nat) {choice : Nat → Nat} {first last : Nat}
    (ordered : first ≤ last)
    (idle : ∀ position, first ≤ position → position < last → choice position = position) :
    exchangedBefore items choice last = exchangedBefore items choice first ∧
      rankBefore size choice last = rankBefore size choice first := by
  induction last, ordered using Nat.le_induction with
  | base => exact ⟨rfl, rfl⟩
  | succ last ordered induction =>
      have own : choice last = last := idle last ordered (by omega)
      obtain ⟨itemsSame, rankSame⟩ :=
        induction fun position lower upper => idle position lower (by omega)
      constructor
      · rw [exchangedBefore, own, swap_if_in_bounds_self, itemsSame]
      · rw [rank_before_succ, own, rankSame]
        simp

/-! ## One move -/

theorem exchanged_turn_self (orderings : Orderings α) {position : Nat}
    (bounded : position < orderings.cursor.size) :
    (orderings.turn position).exchanged position = orderings.exchanged position + 1 := by
  simp [turn, exchanged, Array.getD, bounded]

theorem exchanged_turn_of_ne (orderings : Orderings α) {position other : Nat}
    (different : other ≠ position) :
    (orderings.turn position).exchanged other = orderings.exchanged other := by
  simp [turn, exchanged, Array.getD_eq_getD_getElem?, different.symm]

theorem exchanged_settle (orderings : Orderings α) (position other : Nat) :
    (orderings.settle position).exchanged other =
      if position < other then other else orderings.exchanged other := by
  simp only [settle, exchanged, Array.getD_eq_getD_getElem?, Array.getElem?_mapIdx]
  cases orderings.cursor[other]? with
  | none => simp
  | some index => simp

@[simp] theorem size_cursor_turn (orderings : Orderings α) (position : Nat) :
    (orderings.turn position).cursor.size = orderings.cursor.size := by
  simp [turn]

@[simp] theorem size_cursor_settle (orderings : Orderings α) (position : Nat) :
    (orderings.settle position).cursor.size = orderings.cursor.size := by
  simp [settle]

/-- What an enumeration looks like right after it has given the ordering with this index. -/
structure Settled (items : List α) (orderings : Orderings α) (index : Nat) : Prop where
  cursorSize : orderings.cursor.size = items.length
  lower : ∀ position < items.length, position ≤ orderings.exchanged position
  upper : ∀ position < items.length, orderings.exchanged position < items.length
  arranged : orderings.items = exchangedBefore items.toArray orderings.exchanged items.length
  ranked : rankBefore items.length orderings.exchanged items.length = index

/-- What an enumeration looks like when the search has come down to a position: no later position
has anything to offer, and all later exchanges are undone. -/
structure Unwound (items : List α) (orderings : Orderings α) (position index : Nat) : Prop where
  bounded : position + 1 < items.length
  cursorSize : orderings.cursor.size = items.length
  lower : ∀ earlier ≤ position, earlier ≤ orderings.exchanged earlier
  upper : ∀ earlier ≤ position, orderings.exchanged earlier < items.length
  arranged : orderings.items = exchangedBefore items.toArray orderings.exchanged (position + 1)
  ranked : rankBefore items.length orderings.exchanged (position + 1) +
    (items.length - 1 - position).factorial = index + 1

namespace Unwound

variable {items : List α} {orderings : Orderings α} {position index : Nat}

theorem items_turn (unwound : Unwound items orderings position index) :
    (orderings.turn position).items =
      exchangedBefore items.toArray orderings.exchanged position := by
  change orderings.items.swapIfInBounds position (orderings.exchanged position) = _
  rw [unwound.arranged, exchangedBefore, swap_if_in_bounds_twice]

theorem size_items_turn (unwound : Unwound items orderings position index) :
    (orderings.turn position).items.size = items.length := by
  rw [unwound.items_turn, size_exchanged_before, List.size_toArray]

theorem exchanged_turn (unwound : Unwound items orderings position index) :
    (orderings.turn position).exchanged position = orderings.exchanged position + 1 := by
  have bounded := unwound.bounded
  apply exchanged_turn_self
  rw [unwound.cursorSize]
  omega

theorem rank_turn (unwound : Unwound items orderings position index) :
    rankBefore items.length orderings.exchanged position +
      (orderings.exchanged position + 1 - position) *
        (items.length - 1 - position).factorial = index + 1 := by
  have ranked := unwound.ranked
  have own := unwound.lower position (Nat.le_refl _)
  rw [rank_before_succ] at ranked
  rw [Nat.succ_sub own, Nat.succ_mul, ← Nat.add_assoc]
  exact ranked

theorem exchanged_settle_turn (unwound : Unwound items orderings position index) (other : Nat) :
    ((orderings.turn position).settle position).exchanged other =
      if other < position then orderings.exchanged other
      else if other = position then orderings.exchanged position + 1
      else other := by
  rw [exchanged_settle]
  rcases Nat.lt_trichotomy other position with below | same | above
  · rw [if_neg (by omega), if_pos below, exchanged_turn_of_ne orderings (by omega)]
  · rw [if_neg (by omega), if_neg (by omega), if_pos same, same, unwound.exchanged_turn]
  · rw [if_pos above, if_neg (by omega), if_neg (by omega)]

/-- A position with another index to offer gives the next arrangement. -/
theorem settle_turn (unwound : Unwound items orderings position index)
    (offers : orderings.exchanged position + 1 < items.length) :
    Settled items ((orderings.turn position).settle position) (index + 1) := by
  have bounded := unwound.bounded
  have choice := unwound.exchanged_settle_turn
  have before : ∀ earlier < position,
      ((orderings.turn position).settle position).exchanged earlier =
        orderings.exchanged earlier := by
    intro earlier below
    rw [choice, if_pos below]
  have own : ((orderings.turn position).settle position).exchanged position =
      orderings.exchanged position + 1 := by
    rw [choice, if_neg (Nat.lt_irrefl _), if_pos rfl]
  have idle : ∀ later, position + 1 ≤ later → later < items.length →
      ((orderings.turn position).settle position).exchanged later = later := by
    intro later above _
    rw [choice, if_neg (by omega), if_neg (by omega)]
  obtain ⟨itemsIdle, rankIdle⟩ :=
    idle_positions items.toArray items.length (Nat.le_of_lt bounded) idle
  constructor
  case cursorSize => rw [size_cursor_settle, size_cursor_turn, unwound.cursorSize]
  case lower =>
    intro other inside
    rw [choice]
    split
    · next below => exact unwound.lower other (Nat.le_of_lt below)
    · split
      · next same =>
          have lower := unwound.lower position (Nat.le_refl _)
          omega
      · exact Nat.le_refl _
  case upper =>
    intro other inside
    rw [choice]
    split
    · next below => exact unwound.upper other (Nat.le_of_lt below)
    · split
      · exact offers
      · exact inside
  case arranged =>
    change (orderings.turn position).items.swapIfInBounds position
      ((orderings.turn position).exchanged position) = _
    rw [itemsIdle, exchangedBefore, own, exchanged_before_congr _ before, unwound.items_turn,
      unwound.exchanged_turn]
  case ranked =>
    rw [rankIdle, rank_before_succ, own, rank_before_congr _ before]
    exact unwound.rank_turn

/-- A position without another index to offer carries to the position before it. -/
theorem carry (unwound : Unwound items orderings (position + 1) index)
    (spent : ¬ orderings.exchanged (position + 1) + 1 < items.length) :
    Unwound items (orderings.turn (position + 1)) position index := by
  have bounded := unwound.bounded
  have before : ∀ earlier < position + 1,
      (orderings.turn (position + 1)).exchanged earlier = orderings.exchanged earlier := by
    intro earlier below
    exact exchanged_turn_of_ne orderings (by omega)
  constructor
  case bounded => omega
  case cursorSize => rw [size_cursor_turn, unwound.cursorSize]
  case lower =>
    intro earlier below
    rw [before earlier (by omega)]
    exact unwound.lower earlier (by omega)
  case upper =>
    intro earlier below
    rw [before earlier (by omega)]
    exact unwound.upper earlier (by omega)
  case arranged => rw [unwound.items_turn, exchanged_before_congr _ before]
  case ranked =>
    have ranked := unwound.rank_turn
    have upper := unwound.upper (position + 1) (Nat.le_refl _)
    have digit : orderings.exchanged (position + 1) + 1 - (position + 1) =
        (items.length - 1 - (position + 1)) + 1 := by omega
    have weight : items.length - 1 - position = (items.length - 1 - (position + 1)) + 1 := by omega
    rw [digit] at ranked
    rw [rank_before_congr _ before, weight, Nat.factorial_succ]
    exact ranked

/-- When the first position carries, the last ordering has been given. -/
theorem spent_first (unwound : Unwound items orderings 0 index)
    (spent : ¬ orderings.exchanged 0 + 1 < items.length) :
    (orderings.turn 0).items = items.toArray ∧ index + 1 = items.length.factorial := by
  have bounded := unwound.bounded
  have upper := unwound.upper 0 (Nat.le_refl _)
  have ranked := unwound.rank_turn
  have digit : orderings.exchanged 0 + 1 - 0 = (items.length - 1) + 1 := by omega
  have size : items.length = (items.length - 1) + 1 := by omega
  constructor
  · rw [unwound.items_turn, exchangedBefore]
  · rw [digit, Nat.sub_zero, ← Nat.factorial_succ, ← size] at ranked
    rw [← ranked, rankBefore, Finset.range_zero, Finset.sum_empty, Nat.zero_add]

end Unwound

/-- A search from a position either settles on the arrangement with the next index or, after the
last ordering, comes back to the items as they were. -/
theorem advance_from_spec {items : List α} {orderings : Orderings α} {position index : Nat}
    (unwound : Unwound items orderings position index) :
    ((orderings.advanceFrom position).1 = true ∧
        Settled items (orderings.advanceFrom position).2 (index + 1)) ∨
      ((orderings.advanceFrom position).1 = false ∧
        (orderings.advanceFrom position).2.items = items.toArray ∧
        index + 1 = items.length.factorial) := by
  induction position generalizing orderings with
  | zero =>
      rw [advanceFrom, unwound.size_items_turn, unwound.exchanged_turn]
      by_cases offers : orderings.exchanged 0 + 1 < items.length
      · rw [if_pos offers]
        exact Or.inl ⟨rfl, unwound.settle_turn offers⟩
      · rw [if_neg offers]
        exact Or.inr ⟨rfl, unwound.spent_first offers⟩
  | succ position induction =>
      rw [advanceFrom, unwound.size_items_turn, unwound.exchanged_turn]
      by_cases offers : orderings.exchanged (position + 1) + 1 < items.length
      · rw [if_pos offers]
        exact Or.inl ⟨rfl, unwound.settle_turn offers⟩
      · rw [if_neg offers]
        exact induction (unwound.carry offers)

theorem stage_advance_from (orderings : Orderings α) (position : Nat) :
    (orderings.advanceFrom position).2.stage = orderings.stage := by
  induction position generalizing orderings with
  | zero =>
      rw [advanceFrom]
      split <;> rfl
  | succ position induction =>
      rw [advanceFrom]
      split
      · rfl
      · exact induction (orderings.turn (position + 1))

theorem stage_advance (orderings : Orderings α) : orderings.advance.2.stage = orderings.stage := by
  rw [advance]
  split
  · rfl
  · exact stage_advance_from orderings _

namespace Settled

variable {items : List α} {orderings : Orderings α} {index : Nat}

theorem size_items (settled : Settled items orderings index) :
    orderings.items.size = items.length := by
  rw [settled.arranged, size_exchanged_before, List.size_toArray]

theorem exchanged_last (settled : Settled items orderings index) {position : Nat}
    (last : position + 1 = items.length) : orderings.exchanged position = position := by
  have lower := settled.lower position (by omega)
  have upper := settled.upper position (by omega)
  omega

/-- Nothing is unwound yet when the search begins at the position before the last. -/
theorem unwound (settled : Settled items orderings index) (several : 2 ≤ items.length) :
    Unwound items orderings (items.length - 2) index := by
  have idle : ∀ position, items.length - 2 + 1 ≤ position → position < items.length →
      orderings.exchanged position = position := by
    intro position above inside
    exact settled.exchanged_last (by omega)
  have ordered : items.length - 2 + 1 ≤ items.length := by omega
  obtain ⟨itemsIdle, rankIdle⟩ := idle_positions items.toArray items.length ordered idle
  constructor
  case bounded => omega
  case cursorSize => exact settled.cursorSize
  case lower => exact fun earlier below => settled.lower earlier (by omega)
  case upper => exact fun earlier below => settled.upper earlier (by omega)
  case arranged => rw [settled.arranged, itemsIdle]
  case ranked =>
    have weight : items.length - 1 - (items.length - 2) = 1 := by omega
    rw [← rankIdle, settled.ranked, weight, Nat.factorial_one]

theorem unique (settled : Settled items orderings index) (few : items.length < 2) :
    orderings.items = items.toArray ∧ index + 1 = items.length.factorial := by
  have idle : ∀ position, 0 ≤ position → position < items.length →
      orderings.exchanged position = position := by
    intro position _ inside
    exact settled.exchanged_last (by omega)
  obtain ⟨itemsIdle, rankIdle⟩ :=
    idle_positions items.toArray items.length (Nat.zero_le _) idle
  constructor
  · rw [settled.arranged, itemsIdle, exchangedBefore]
  · have one : items.length.factorial = 1 := Nat.factorial_eq_one.mpr (by omega)
    rw [one, ← settled.ranked, rankIdle]
    rfl

theorem advance_spec (settled : Settled items orderings index) :
    (orderings.advance.1 = true ∧ Settled items orderings.advance.2 (index + 1)) ∨
      (orderings.advance.1 = false ∧ orderings.advance.2.items = items.toArray ∧
        index + 1 = items.length.factorial) := by
  rw [advance, settled.size_items]
  by_cases few : items.length < 2
  · rw [if_pos few]
    exact Or.inr ⟨rfl, settled.unique few⟩
  · rw [if_neg few]
    exact advance_from_spec (settled.unwound (by omega))

end Settled

theorem exchanged_of_list (items : List α) (position : Nat) :
    (ofList items).exchanged position = position := by
  simp only [exchanged, ofList, Array.getD_eq_getD_getElem?]
  by_cases inside : position < items.length
  · simp [inside]
  · simp [inside]

theorem settled_of_list (items : List α) : Settled items (ofList items) 0 := by
  have idle : ∀ position, 0 ≤ position → position < items.length →
      (ofList items).exchanged position = position :=
    fun position _ _ => exchanged_of_list items position
  obtain ⟨itemsIdle, rankIdle⟩ :=
    idle_positions items.toArray items.length (Nat.zero_le _) idle
  constructor
  case cursorSize => simp [ofList]
  case lower =>
    intro position _
    rw [exchanged_of_list]
  case upper =>
    intro position inside
    rw [exchanged_of_list]
    exact inside
  case arranged =>
    rw [itemsIdle]
    rfl
  case ranked =>
    rw [rankIdle]
    rfl

/-! ## All calls -/

/-- The states that an enumeration passes through, with the number of calls made so far. -/
inductive Reached (items : List α) : Nat → Orderings α → Prop
  | fresh : Reached items 0 (ofList items)
  | underway {orderings : Orderings α} {index : Nat} (stage : orderings.stage = .underway)
      (settled : Settled items orderings index) : Reached items (index + 1) orderings
  | exhausted {orderings : Orderings α} {calls : Nat} (stage : orderings.stage = .exhausted)
      (restored : orderings.items = items.toArray) (passed : items.length.factorial < calls) :
      Reached items calls orderings

namespace Reached

variable {items : List α} {orderings : Orderings α} {calls : Nat}

/-- One call either gives the ordering whose index is the number of earlier calls, or finds that
all orderings have been given. -/
theorem next_spec (reached : Reached items calls orderings) :
    (orderings.next.1 = some orderings.next.2.items.toList ∧
        orderings.next.2.stage = .underway ∧ Settled items orderings.next.2 calls) ∨
      (orderings.next.1 = none ∧ orderings.next.2.stage = .exhausted ∧
        orderings.next.2.items = items.toArray ∧ items.length.factorial ≤ calls) := by
  cases reached with
  | fresh =>
      have settled := settled_of_list items
      exact Or.inl ⟨rfl, rfl,
        ⟨settled.cursorSize, settled.lower, settled.upper, settled.arranged, settled.ranked⟩⟩
  | @underway _ index stage settled =>
      have kept := stage_advance orderings
      have moved := settled.advance_spec
      unfold next
      rw [stage]
      revert kept moved
      rcases orderings.advance with ⟨found, advanced⟩
      intro kept moved
      rcases moved with ⟨rfl, later⟩ | ⟨rfl, restored, last⟩
      · exact Or.inl ⟨rfl, kept.trans stage, later⟩
      · exact Or.inr ⟨rfl, rfl, restored, by omega⟩
  | exhausted stage restored passed =>
      unfold next
      rw [stage]
      exact Or.inr ⟨rfl, stage, restored, by omega⟩

theorem next (reached : Reached items calls orderings) :
    Reached items (calls + 1) orderings.next.2 := by
  rcases reached.next_spec with ⟨_, stage, settled⟩ | ⟨_, stage, restored, passed⟩
  · exact Reached.underway stage settled
  · exact Reached.exhausted stage restored (by omega)

theorem after (reached : Reached items calls orderings) (more : Nat) :
    Reached items (calls + more) (orderings.after more) := by
  induction more generalizing calls orderings with
  | zero => exact reached
  | succ more induction =>
      have later := induction reached.next
      rw [Nat.add_right_comm, Nat.add_assoc] at later
      exact later

end Reached

theorem reached_after (items : List α) (calls : Nat) :
    Reached items calls ((ofList items).after calls) := by
  have reached : Reached items (0 + calls) ((ofList items).after calls) := Reached.fresh.after calls
  rw [Nat.zero_add] at reached
  exact reached

end Orderings

end LockExplorer
