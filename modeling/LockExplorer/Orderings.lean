/-!
# Orderings of a list

All orderings of a list are produced one at a time, in the order of the swap recursion: exchange
each of the items from a position on into that position in turn, order the rest in the same way, and
exchange back. With more than two items this is not the lexicographic order.

The recursion is unrolled. For every position the cursor tells which index is currently exchanged
into it, and moving on undoes exchanges from the end of the list until some position has another
index to offer. The operations are those of `Permutations`: `new`, `next` with its `advance`, and
`total`. `SwapRecursion` has the plain recursion, `swap_recursive`: for each index from a position
on, exchange it into the position, list all arrangements of what comes after, and go on with the
items as they were.
-/

namespace LockExplorer

inductive Stage where
  | fresh
  | underway
  | exhausted
deriving DecidableEq

structure Orderings (α : Type) where
  /-- The current arrangement. -/
  items : Array α
  /-- The index that is exchanged into each position. -/
  cursor : Array Nat
  stage : Stage := .fresh
deriving DecidableEq

namespace Orderings

variable {α : Type}

def ofList (items : List α) : Orderings α :=
  { items := items.toArray, cursor := Array.range items.length }

/-! ## Moving on -/

def exchanged (orderings : Orderings α) (position : Nat) : Nat :=
  orderings.cursor.getD position position

/-- Undoes the exchange at a position and turns to the position's next index. -/
def turn (orderings : Orderings α) (position : Nat) : Orderings α :=
  let index := orderings.exchanged position
  { orderings with
    items := orderings.items.swapIfInBounds position index
    cursor := orderings.cursor.setIfInBounds position (index + 1) }

/-- Makes the exchange at a position and lets all later positions start anew. -/
def settle (orderings : Orderings α) (position : Nat) : Orderings α :=
  { orderings with
    items := orderings.items.swapIfInBounds position (orderings.exchanged position)
    cursor := orderings.cursor.mapIdx fun later index => if position < later then later else index }

/-- Looks for a position with another index to offer, from this position towards the first, and
tells whether there was one. All exchanges are undone when there was none. -/
def advanceFrom (orderings : Orderings α) (position : Nat) : Bool × Orderings α :=
  let turned := orderings.turn position
  if turned.exchanged position < turned.items.size then (true, turned.settle position)
  else
    match position with
    | 0 => (false, turned)
    | earlier + 1 => turned.advanceFrom earlier

/-- Moves to the next arrangement, and tells whether there is one. The last position has nothing to
choose, so the search begins at the position before it. -/
def advance (orderings : Orderings α) : Bool × Orderings α :=
  if orderings.items.size < 2 then (false, orderings)
  else orderings.advanceFrom (orderings.items.size - 2)

def next (orderings : Orderings α) : Option (List α) × Orderings α :=
  match orderings.stage with
  | .exhausted => (none, orderings)
  | .fresh => (some orderings.items.toList, { orderings with stage := .underway })
  | .underway =>
      match orderings.advance with
      | (true, advanced) => (some advanced.items.toList, advanced)
      | (false, undone) => (none, { undone with stage := .exhausted })

/-- Passes over so many orderings and gives the one after them; stops early at the end. -/
def skip (orderings : Orderings α) : Nat → Option (List α) × Orderings α
  | 0 => orderings.next
  | count + 1 =>
      match orderings.next with
      | (some _, later) => later.skip count
      | (none, later) => (none, later)

/-! ## How many there are -/

def count : Nat → Nat
  | 0 => 1
  | items + 1 => (items + 1) * count items

/-- Totals from here on are not announced. -/
def totalBound : Nat := Nat.pow 2 128

def boundedProduct (left right : Nat) : Option Nat :=
  if left * right < totalBound then some (left * right) else none

/-- The number of all orderings, unless it reaches the bound. Progress does not change it. -/
def total? (orderings : Orderings α) : Option Nat :=
  (List.range orderings.items.size).foldlM
    (fun product index => boundedProduct product (index + 1)) 1

/-- Adds the number of orderings that are left, among at most so many, to a number. -/
def countLeft (orderings : Orderings α) : Nat → Nat → Nat
  | 0, counted => counted
  | most + 1, counted =>
      match orderings.next with
      | (some _, later) => later.countLeft most (counted + 1)
      | (none, _) => counted

def remaining (orderings : Orderings α) : Nat :=
  orderings.countLeft (count orderings.items.size) 0

end Orderings

/-! ## The swap recursion -/

namespace SwapRecursion

variable {α : Type}

/-- All arrangements that leave the items before a position alone. -/
def arrangementsFrom (items : Array α) (position : Nat) : List (Array α) :=
  if position + 1 < items.size then
    (List.range' position (items.size - position)).flatMap fun index =>
      arrangementsFrom (items.swapIfInBounds position index) (position + 1)
  else [items]
termination_by items.size - position
decreasing_by
  rw [Array.size_swapIfInBounds]
  omega

def orderings (items : List α) : List (List α) :=
  (arrangementsFrom items.toArray 0).map Array.toList

end SwapRecursion

end LockExplorer
