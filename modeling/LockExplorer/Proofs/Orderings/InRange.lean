import LockExplorer.Proofs.Orderings.Total

/-!
# Every index is in range

A second form of the enumeration gives up at the first index that lies outside the items or the
cursor, and it renews the later positions one after the other. On every state that calls lead to it
gives what the enumeration gives, so that no call ever reaches outside. This rests on what the
cursor means: after each ordering it spells the exchanges that lead to the arrangement, and the
digits of the ordering's index. Behind the last ordering the cursor points outside, and only the
stage keeps further calls from following it.
-/

namespace LockExplorer

namespace Orderings

variable {α : Type}

/-! ## Moving on with checked indices -/

def exchange? (items : Array α) (left right : Nat) : Option (Array α) :=
  if inside : left < items.size ∧ right < items.size then
    some (items.swap left right inside.1 inside.2)
  else none

def write? (cursor : Array Nat) (position index : Nat) : Option (Array Nat) :=
  if inside : position < cursor.size then some (cursor.set position index inside) else none

def turn? (orderings : Orderings α) (position : Nat) : Option (Orderings α) := do
  let index ← orderings.cursor[position]?
  let items ← exchange? orderings.items position index
  let cursor ← write? orderings.cursor position (index + 1)
  return { orderings with items, cursor }

/-- As `settle`, with every index checked, up to as many positions as there are items. -/
def settle? (orderings : Orderings α) (position : Nat) : Option (Orderings α) := do
  let index ← orderings.cursor[position]?
  let items ← exchange? orderings.items position index
  let later := List.range' (position + 1) (orderings.items.size - (position + 1))
  let cursor ← later.foldlM (fun cursor other => write? cursor other other) orderings.cursor
  return { orderings with items, cursor }

def advanceFrom? (orderings : Orderings α) (position : Nat) : Option (Bool × Orderings α) := do
  let turned ← orderings.turn? position
  let index ← turned.cursor[position]?
  if index < turned.items.size then
    let settled ← turned.settle? position
    return (true, settled)
  else
    match position with
    | 0 => return (false, turned)
    | earlier + 1 => turned.advanceFrom? earlier

def advance? (orderings : Orderings α) : Option (Bool × Orderings α) :=
  if orderings.items.size < 2 then some (false, orderings)
  else orderings.advanceFrom? (orderings.items.size - 2)

def next? (orderings : Orderings α) : Option (Option (List α) × Orderings α) :=
  match orderings.stage with
  | .exhausted => some (none, orderings)
  | .fresh => some (some orderings.items.toList, { orderings with stage := .underway })
  | .underway =>
      orderings.advance?.map fun moved =>
        if moved.1 then (some moved.2.items.toList, moved.2)
        else (none, { moved.2 with stage := .exhausted })

theorem exchange_eq {items : Array α} {left right : Nat} (leftInside : left < items.size)
    (rightInside : right < items.size) :
    exchange? items left right = some (items.swapIfInBounds left right) := by
  simp [exchange?, Array.swapIfInBounds_def, leftInside, rightInside]

theorem write_eq {cursor : Array Nat} {position : Nat} (inside : position < cursor.size)
    (index : Nat) : write? cursor position index = some (cursor.setIfInBounds position index) := by
  simp [write?, Array.setIfInBounds, inside]

theorem get_elem_cursor (orderings : Orderings α) {position : Nat}
    (inside : position < orderings.cursor.size) :
    orderings.cursor[position]? = some (orderings.exchanged position) := by
  simp [exchanged, inside]

theorem turn_eq (orderings : Orderings α) {position : Nat}
    (inside : position < orderings.cursor.size) (own : position < orderings.items.size)
    (other : orderings.exchanged position < orderings.items.size) :
    orderings.turn? position = some (orderings.turn position) := by
  simp [turn?, turn, get_elem_cursor orderings inside, exchange_eq own other, write_eq inside]

/-- All positions behind one are renewed, one after the other. -/
theorem foldlm_write_eq (cursor : Array Nat) (position count : Nat)
    (whole : position + 1 + count = cursor.size) :
    (List.range' (position + 1) count).foldlM (fun cursor other => write? cursor other other)
        cursor =
      some (cursor.mapIdx fun other index => if position < other then other else index) := by
  induction count generalizing position cursor with
  | zero =>
      have kept : (cursor.mapIdx fun other index => if position < other then other else index) =
          cursor := by
        apply Array.ext
        · simp
        · intro other _ inside
          rw [Array.getElem_mapIdx, if_neg (by omega)]
      rw [kept]
      simp
  | succ count induction =>
      have size : position + 1 + 1 + count =
          (cursor.setIfInBounds (position + 1) (position + 1)).size := by
        rw [Array.size_setIfInBounds]
        omega
      have rest := induction _ (position + 1) size
      rw [List.range'_succ, List.foldlM_cons, write_eq (by omega)]
      simp only [Option.bind_eq_bind, Option.bind_some]
      rw [rest]
      congr 1
      apply Array.ext
      · simp
      · intro other _ _
        simp only [Array.getElem_mapIdx]
        grind

theorem settle_eq (orderings : Orderings α) {position : Nat}
    (whole : orderings.cursor.size = orderings.items.size) (own : position < orderings.items.size)
    (other : orderings.exchanged position < orderings.items.size) :
    orderings.settle? position = some (orderings.settle position) := by
  have inside : position < orderings.cursor.size := by omega
  have renewed := foldlm_write_eq orderings.cursor position
    (orderings.items.size - (position + 1)) (by omega)
  simp [settle?, settle, get_elem_cursor orderings inside, exchange_eq own other, renewed]

/-! ## All calls -/

namespace Unwound

variable {items : List α} {orderings : Orderings α} {position index : Nat}

theorem turn_eq (unwound : Unwound items orderings position index) :
    orderings.turn? position = some (orderings.turn position) := by
  have bounded := unwound.bounded
  have upper := unwound.upper position (Nat.le_refl _)
  have size : orderings.items.size = items.length := by
    rw [unwound.arranged, size_exchanged_before, List.size_toArray]
  apply Orderings.turn_eq
  · rw [unwound.cursorSize]
    omega
  · omega
  · omega

theorem settle_turn_eq (unwound : Unwound items orderings position index)
    (offers : orderings.exchanged position + 1 < items.length) :
    (orderings.turn position).settle? position =
      some ((orderings.turn position).settle position) := by
  have bounded := unwound.bounded
  have size := unwound.size_items_turn
  apply Orderings.settle_eq
  · rw [size_cursor_turn, unwound.cursorSize, size]
  · omega
  · rw [unwound.exchanged_turn, size]
    exact offers

theorem get_elem_cursor_turn (unwound : Unwound items orderings position index) :
    (orderings.turn position).cursor[position]? = some (orderings.exchanged position + 1) := by
  have bounded := unwound.bounded
  rw [get_elem_cursor, unwound.exchanged_turn]
  rw [size_cursor_turn, unwound.cursorSize]
  omega

/-- The search reads and exchanges within range down to the position where it ends. -/
theorem advance_from_eq (unwound : Unwound items orderings position index) :
    orderings.advanceFrom? position = some (orderings.advanceFrom position) := by
  induction position generalizing orderings with
  | zero =>
      rw [advanceFrom?, advanceFrom, unwound.turn_eq, unwound.size_items_turn,
        unwound.exchanged_turn]
      simp only [Option.bind_eq_bind, Option.bind_some, unwound.get_elem_cursor_turn,
        unwound.size_items_turn]
      by_cases offers : orderings.exchanged 0 + 1 < items.length
      · simp [offers, unwound.settle_turn_eq offers]
      · simp [offers]
  | succ position induction =>
      rw [advanceFrom?, advanceFrom, unwound.turn_eq, unwound.size_items_turn,
        unwound.exchanged_turn]
      simp only [Option.bind_eq_bind, Option.bind_some, unwound.get_elem_cursor_turn,
        unwound.size_items_turn]
      by_cases offers : orderings.exchanged (position + 1) + 1 < items.length
      · simp [offers, unwound.settle_turn_eq offers]
      · simp only [if_neg offers]
        exact induction (unwound.carry offers)

end Unwound

theorem Settled.advance_eq {items : List α} {orderings : Orderings α} {index : Nat}
    (settled : Settled items orderings index) :
    orderings.advance? = some orderings.advance := by
  rw [advance?, advance, settled.size_items]
  by_cases few : items.length < 2
  · rw [if_pos few, if_pos few]
  · rw [if_neg few, if_neg few]
    exact (settled.unwound (by omega)).advance_from_eq

theorem Reached.next_eq {items : List α} {orderings : Orderings α} {calls : Nat}
    (reached : Reached items calls orderings) : orderings.next? = some orderings.next := by
  cases reached with
  | fresh => rfl
  | underway stage settled =>
      rw [Orderings.next?, Orderings.next, stage]
      simp only [settled.advance_eq, Option.map_some]
      rcases orderings.advance with ⟨found, advanced⟩
      cases found <;> rfl
  | exhausted stage _ _ => rw [Orderings.next?, Orderings.next, stage]

theorem exchanged_before_eq_foldl (items : Array α) (choice : Nat → Nat) (position : Nat) :
    exchangedBefore items choice position =
      (List.range position).foldl
        (fun arranged earlier => arranged.swapIfInBounds earlier (choice earlier)) items := by
  induction position with
  | zero => rfl
  | succ position induction =>
      rw [exchangedBefore, induction, List.range_succ, List.foldl_append]
      simp

theorem after_succ (orderings : Orderings α) (calls : Nat) :
    orderings.after (calls + 1) = (orderings.after calls).next.2 :=
  (after_after orderings calls 1).symm

theorem Settled.cursor_bounds {items : List α} {orderings : Orderings α} {index : Nat}
    (settled : Settled items orderings index) {position other : Nat}
    (read : orderings.cursor[position]? = some other) :
    position ≤ other ∧ other < items.length := by
  have inside : position < orderings.cursor.size := (Array.getElem?_eq_some_iff.mp read).1
  have value : orderings.exchanged position = other := by
    rw [get_elem_cursor orderings inside] at read
    exact Option.some.inj read
  rw [settled.cursorSize] at inside
  rw [← value]
  exact ⟨settled.lower position inside, settled.upper position inside⟩

/-- An ordering that a call gives has the number of earlier calls as its index. -/
theorem given_by_of_next {items ordering : List α} {calls : Nat}
    (given : ((ofList items).after calls).next.1 = some ordering) :
    (ofList items).givenBy calls = calls := by
  rw [yields_of_list items calls] at given
  have inside := (List.getElem?_eq_some_iff.mp given).1
  rw [(yields_of_list items).given_by_eq]
  omega

theorem Reached.settled_of_next {items ordering : List α} {orderings later : Orderings α}
    {calls : Nat} (reached : Reached items calls orderings)
    (gives : orderings.next = (some ordering, later)) :
    later.items.toList = ordering ∧ Settled items later calls := by
  rcases reached.next_spec with ⟨given, _, settled⟩ | ⟨ended, _⟩
  · rw [gives] at given settled
    exact ⟨(Option.some.inj given).symm, settled⟩
  · rw [gives] at ended
    cases ended

theorem Reached.restored_of_next {items : List α} {orderings later : Orderings α} {calls : Nat}
    (reached : Reached items calls orderings) (ends : orderings.next = (none, later)) :
    later.items = items.toArray := by
  rcases reached.next_spec with ⟨given, _⟩ | ⟨_, _, restored, _⟩
  · rw [ends] at given
    cases given
  · rw [ends] at restored
    exact restored

/-- No call reads or writes outside the items or the cursor. After a call that gives an ordering,
the cursor has an index for every position, none below the position and none outside; the items are
the first ones with the exchanges of the cursor made from the first position on; and the cursor
spells how many orderings came before. After a call that gives nothing, the items are as they were. -/
theorem calls_keep_representation (items : List α) (calls : Nat) :
    ((ofList items).after calls).next? =
        some (((ofList items).after calls).next.1, (ofList items).after (calls + 1)) ∧
      (∀ ordering later, ((ofList items).after calls).next = (some ordering, later) →
        later.items.toList = ordering ∧
        later.cursor.size = items.length ∧
        (∀ position index, later.cursor[position]? = some index →
          position ≤ index ∧ index < items.length) ∧
        later.items = (List.range items.length).foldl
          (fun arranged position =>
            arranged.swapIfInBounds position (later.exchanged position)) items.toArray ∧
        (ofList items).givenBy calls = ∑ position ∈ Finset.range items.length,
          (later.exchanged position - position) * (items.length - 1 - position).factorial) ∧
      ∀ later, ((ofList items).after calls).next = (none, later) → later.items = items.toArray := by
  have reached := reached_after items calls
  constructor
  · rw [reached.next_eq, after_succ]
  constructor
  · intro ordering later gives
    obtain ⟨shown, settled⟩ := reached.settled_of_next gives
    have index := given_by_of_next (congrArg Prod.fst gives)
    have arranged := settled.arranged
    rw [exchanged_before_eq_foldl] at arranged
    exact ⟨shown, settled.cursorSize, fun _ _ read => settled.cursor_bounds read, arranged,
      index.trans settled.ranked.symm⟩
  · intro later ends
    exact reached.restored_of_next ends

theorem calls_keep_representation_three :
    ((ofList [10, 20, 30]).after 3).next.1 = some [20, 30, 10] ∧
      (ofList [10, 20, 30]).givenBy 3 = ∑ position ∈ Finset.range 3,
        (((ofList [10, 20, 30]).after 3).next.2.exchanged position - position) *
          (2 - position).factorial ∧
      ((ofList [10, 20, 30]).after 6).next.1 = none ∧
      ((ofList [10, 20, 30]).after 6).next.2.items = #[10, 20, 30] := by
  have fourth : ((ofList [10, 20, 30]).after 3).next.1 = some [20, 30, 10] := by decide
  have seventh : ((ofList [10, 20, 30]).after 6).next.1 = none := by decide
  obtain ⟨_, represented, _⟩ := calls_keep_representation [10, 20, 30] 3
  obtain ⟨_, _, restored⟩ := calls_keep_representation [10, 20, 30] 6
  have index := (represented _ _ (Prod.ext fourth rfl)).2.2.2.2
  exact ⟨fourth, index, seventh, restored _ (Prod.ext seventh rfl)⟩

/-- Behind the last ordering the checked search would reach outside. -/
example : ((ofList [10, 20]).after 3).advance? = none := by decide

end Orderings

end LockExplorer
