import LockExplorer.Proofs.OwnershipCycle.Exactness
import Mathlib.Data.Finset.Card
import Mathlib.Data.Finset.Dedup

/-!
# How deep the walks go

A walk follows whatever the ledger says, cycles included, and it ends because every further call is
made with one more owner visited. So the calls that are open at one time are at most one more than
there are owners: a walk that has only so much room still comes to its end. What is kept between two
walks is safe to keep, because the threads that were visited lead only to one another and from each
of them the steps stop.
-/

namespace LockExplorer

namespace Ledger

/-! ## Calls -/

/-- A call of the walk: the thread it is made on, and the visited threads and the path it finds. -/
structure Call where
  thread : ThreadId
  visited : List ThreadId
  path : List ThreadId
deriving DecidableEq

/-- The call that a call makes in turn, with its own thread now visited and on the path. -/
def nested? (ledger : Ledger) (call : Call) : Option Call :=
  if call.thread ∈ call.path ∨ call.thread ∈ call.visited then none
  else
    (ledger.successor? call.thread).map fun next =>
      ⟨next, call.thread :: call.visited, call.thread :: call.path⟩

namespace Call

def ended (call : Call) : Walk :=
  if call.thread ∈ call.path then ⟨some call.thread, call.visited, call.path⟩
  else if call.thread ∈ call.visited then ⟨none, call.visited, call.path⟩
  else ⟨none, call.thread :: call.visited, call.path⟩

def resumed (call : Call) (onward : Walk) : Walk :=
  if onward.found.isSome then onward
  else { onward with path := onward.path.erase call.thread }

end Call

/-- The walk in a room for so many calls, one nested in the other. There is no result when the room
does not suffice. -/
def walkWithin (ledger : Ledger) : Nat → Call → Option Walk
  | 0, _ => none
  | room + 1, call =>
      match ledger.nested? call with
      | none => some call.ended
      | some inner => (ledger.walkWithin room inner).map call.resumed

/-- How the check goes from start to start: the owners that are still to be walked from and the
threads visited so far. It moves on when a walk has found nothing. -/
inductive Pending (ledger : Ledger) : List ThreadId → List ThreadId → Prop
  | first : Pending ledger ledger.owners []
  | next {start : ThreadId} {later visited : List ThreadId}
      (pending : Pending ledger (start :: later) visited)
      (missed : (ledger.walk start visited []).found = none) :
      Pending ledger later (ledger.walk start visited []).visited

/-- The calls that the check makes, and how many calls are then open. -/
inductive Made (ledger : Ledger) : Nat → Call → Prop
  | start {start : ThreadId} {later visited : List ThreadId}
      (pending : Pending ledger (start :: later) visited) : Made ledger 1 ⟨start, visited, []⟩
  | nested {depth : Nat} {call inner : Call} (made : Made ledger depth call)
      (further : ledger.nested? call = some inner) : Made ledger (depth + 1) inner

variable {ledger : Ledger} {call inner : Call} {depth : Nat}
  {start thread next : ThreadId} {later visited path : List ThreadId}

theorem nested_eq_some_iff :
    ledger.nested? call = some inner ↔
      call.thread ∉ call.path ∧ call.thread ∉ call.visited ∧
        ∃ next, ledger.successor? call.thread = some next ∧
          inner = ⟨next, call.thread :: call.visited, call.thread :: call.path⟩ := by
  by_cases again : call.thread ∈ call.path
  · simp [nested?, again]
  · by_cases seen : call.thread ∈ call.visited
    · simp [nested?, seen]
    · simp [nested?, again, seen, eq_comm]

/-- A walk gives what its call gives by itself, or what it makes of the nested call. -/
theorem walk_eq_ended (last : ledger.nested? call = none) :
    ledger.walk call.thread call.visited call.path = call.ended := by
  rw [walk, Call.ended]
  by_cases again : call.thread ∈ call.path
  · rw [if_pos again, if_pos again]
  · by_cases seen : call.thread ∈ call.visited
    · simp only [again, seen, if_true, if_false]
    · have stuck : ledger.successor? call.thread = none := by
        simpa [nested?, again, seen] using last
      simp only [again, seen, if_false]
      split
      · rfl
      · simp_all

theorem walk_eq_resumed (further : ledger.nested? call = some inner) :
    ledger.walk call.thread call.visited call.path =
      call.resumed (ledger.walk inner.thread inner.visited inner.path) := by
  obtain ⟨fresh, unseen, next, step, rfl⟩ := nested_eq_some_iff.mp further
  rw [walk, Call.resumed]
  simp only [fresh, unseen, if_false]
  split
  · simp_all
  · next other otherStep =>
      have same : next = other := Option.some.inj (step.symm.trans otherStep)
      rw [same]
      cases (ledger.walk other (call.thread :: call.visited) (call.thread :: call.path)).found with
      | none => simp
      | some entry => simp

/-! ## The room that a walk takes -/

def unseen (ledger : Ledger) (visited : List ThreadId) : Finset ThreadId :=
  ledger.owners.toFinset \ visited.toFinset

theorem card_unseen_cons (owned : thread ∈ ledger.owners) (fresh : thread ∉ visited) :
    (ledger.unseen (thread :: visited)).card + 1 = (ledger.unseen visited).card := by
  have fewer : ledger.unseen (thread :: visited) = (ledger.unseen visited).erase thread := by
    ext other
    simp only [unseen, List.toFinset_cons, Finset.mem_sdiff, Finset.mem_insert, Finset.mem_erase]
    tauto
  rw [fewer, Finset.card_erase_add_one]
  simp [unseen, owned, fresh]

/-- A walk needs room for one call more than there are owners to be seen. -/
theorem walk_within_eq {room : Nat} (owned : call.thread ∈ ledger.owners)
    (enough : (ledger.unseen call.visited).card < room) :
    ledger.walkWithin room call = some (ledger.walk call.thread call.visited call.path) := by
  induction room generalizing call with
  | zero => omega
  | succ room induction =>
      rw [walkWithin]
      cases further : ledger.nested? call with
      | none => simp [walk_eq_ended further]
      | some inner =>
          obtain ⟨_, fresh, next, step, innerEq⟩ := nested_eq_some_iff.mp further
          have innerOwned : inner.thread ∈ ledger.owners := by
            rw [innerEq]
            exact mem_owners_of_successor step
          have innerEnough : (ledger.unseen inner.visited).card < room := by
            have fewer := card_unseen_cons owned fresh
            rw [innerEq]
            change (ledger.unseen (call.thread :: call.visited)).card < room
            omega
          simp [induction innerOwned innerEnough, walk_eq_resumed further]

structure Nested (ledger : Ledger) (depth : Nat) (call : Call) : Prop where
  owned : call.thread ∈ ledger.owners
  depthEq : call.path.length + 1 = depth
  distinct : call.path.Nodup
  pathVisited : call.path ⊆ call.visited
  visitedOwned : call.visited ⊆ ledger.owners

namespace Nested

theorem of_start (owned : start ∈ ledger.owners) (visitedOwned : visited ⊆ ledger.owners) :
    ledger.Nested 1 ⟨start, visited, []⟩ := by
  constructor
  case owned => exact owned
  case depthEq => rfl
  case distinct => simp
  case pathVisited => simp
  case visitedOwned => exact visitedOwned

/-- A nested call is made on an owner, after one more owner was visited. -/
theorem further (nested : ledger.Nested depth call) (further : ledger.nested? call = some inner) :
    ledger.Nested (depth + 1) inner := by
  obtain ⟨fresh, _, next, step, rfl⟩ := nested_eq_some_iff.mp further
  constructor
  case owned => exact mem_owners_of_successor step
  case depthEq => simp [← nested.depthEq]
  case distinct => simp [fresh, nested.distinct]
  case pathVisited => simp [nested.pathVisited, List.subset_cons_of_subset]
  case visitedOwned => simp [nested.owned, nested.visitedOwned]

/-- The open calls are on different owners, and none of these is still to be seen. -/
theorem card_unseen_add (nested : ledger.Nested depth call) :
    (ledger.unseen call.visited).card + depth ≤ ledger.owners.toFinset.card + 1 := by
  have pathOwned : call.path.toFinset ⊆ ledger.owners.toFinset := by
    intro thread member
    rw [List.mem_toFinset] at member ⊢
    exact nested.visitedOwned (nested.pathVisited member)
  have beside : ledger.unseen call.visited ⊆ ledger.owners.toFinset \ call.path.toFinset := by
    intro thread member
    simp only [unseen, Finset.mem_sdiff, List.mem_toFinset] at member ⊢
    exact ⟨member.1, fun onPath => member.2 (nested.pathVisited onPath)⟩
  have fewer := Finset.card_le_card beside
  have within := Finset.card_le_card pathOwned
  rw [Finset.card_sdiff_of_subset pathOwned] at fewer
  rw [List.toFinset_card_of_nodup nested.distinct] at fewer within
  have depthEq := nested.depthEq
  omega

end Nested

/-! ## What the walks leave behind -/

theorem mem_visited_walk {known : ThreadId} (member : known ∈ visited) :
    known ∈ (ledger.walk thread visited path).visited := by
  fun_induction walk ledger thread visited path with
  | case1 => exact member
  | case2 => exact member
  | case3 => exact List.mem_cons_of_mem _ member
  | case4 thread visited path _ _ next step onward _ _ induction =>
      exact induction (List.mem_cons_of_mem _ member)
  | case5 thread visited path _ _ next step onward _ induction =>
      exact induction (List.mem_cons_of_mem _ member)

theorem visited_walk_subset (owned : thread ∈ ledger.owners)
    (visitedOwned : visited ⊆ ledger.owners) :
    (ledger.walk thread visited path).visited ⊆ ledger.owners := by
  fun_induction walk ledger thread visited path with
  | case1 => exact visitedOwned
  | case2 => exact visitedOwned
  | case3 => simp [owned, visitedOwned]
  | case4 thread visited path _ _ next step onward _ _ induction =>
      exact induction (mem_owners_of_successor step) (by simp [owned, visitedOwned])
  | case5 thread visited path _ _ next step onward _ induction =>
      exact induction (mem_owners_of_successor step) (by simp [owned, visitedOwned])

def ClosedOff (ledger : Ledger) (visited path : List ThreadId) : Prop :=
  ∀ known ∈ visited, known ∉ path → ∀ next, ledger.successor? known = some next → next ∈ visited

/-- A walk that finds nothing has visited its thread and all that it leads to. -/
theorem closed_off_walk (closed : ledger.ClosedOff visited path)
    (missed : (ledger.walk thread visited path).found = none) :
    thread ∈ (ledger.walk thread visited path).visited ∧
      ledger.ClosedOff (ledger.walk thread visited path).visited path := by
  fun_induction walk ledger thread visited path with
  | case1 thread visited path again => cases missed
  | case2 thread visited path fresh seen => exact ⟨seen, closed⟩
  | case3 thread visited path fresh unseen stuck =>
      constructor
      · simp
      · intro known member offPath next step
        rcases List.mem_cons.mp member with same | before
        · rw [same, stuck] at step
          cases step
        · exact List.mem_cons_of_mem _ (closed known before offPath next step)
  | case4 thread visited path fresh unseen next step onward entry found induction =>
      rw [found] at missed
      cases missed
  | case5 thread visited path fresh unseen next step onward onwardMissed induction =>
      have pushed : ledger.ClosedOff (thread :: visited) (thread :: path) := by
        intro known member offPath other otherStep
        rw [List.mem_cons, not_or] at offPath
        have before := (List.mem_cons.mp member).resolve_left offPath.1
        exact List.mem_cons_of_mem _ (closed known before offPath.2 other otherStep)
      obtain ⟨nextVisited, onwardClosed⟩ := induction pushed onwardMissed
      constructor
      · exact mem_visited_walk List.mem_cons_self
      · intro known member offPath other otherStep
        -- The thread leaves the path now; what it leads to has just been walked from.
        by_cases same : known = thread
        · rw [same, step] at otherStep
          rw [← Option.some.inj otherStep]
          exact nextVisited
        · exact onwardClosed known member (by simp [same, offPath]) other otherStep

structure Swept (ledger : Ledger) (visited : List ThreadId) : Prop where
  owned : visited ⊆ ledger.owners
  closed : ledger.ClosedOff visited []
  accounted : ledger.Accounted visited []

theorem Swept.after_walk (swept : ledger.Swept visited) (owned : start ∈ ledger.owners)
    (missed : (ledger.walk start visited []).found = none) :
    (ledger.walk start visited []).path = [] ∧
      ledger.Swept (ledger.walk start visited []).visited := by
  rcases walk_spec (Trail.nil ledger start) swept.accounted with
    ⟨entry, found, _⟩ | ⟨_, restored, _, accounted⟩
  · rw [missed] at found
    cases found
  · exact ⟨restored, visited_walk_subset owned swept.owned,
      (closed_off_walk swept.closed missed).2, accounted⟩

namespace Pending

variable {starts : List ThreadId}

theorem starts_subset (pending : ledger.Pending starts visited) : starts ⊆ ledger.owners := by
  induction pending with
  | first => simp
  | next _ _ induction => exact (List.cons_subset.mp induction).2

theorem swept (pending : ledger.Pending starts visited) : ledger.Swept visited := by
  induction pending with
  | first =>
      constructor
      case owned => simp
      case closed => simp [ClosedOff]
      case accounted => simp [Accounted]
  | next pending missed induction =>
      have owned := (List.cons_subset.mp pending.starts_subset).1
      exact (induction.after_walk owned missed).2

/-- Wherever the check has come to, walking on from there decides what it reports. -/
theorem cycle_eq (pending : ledger.Pending starts visited) :
    ledger.cycle? = ledger.walkEach starts visited := by
  induction pending with
  | first => rfl
  | next pending missed induction =>
      rw [induction, walkEach]
      simp [missed]

end Pending

theorem Made.is_nested (made : ledger.Made depth call) : ledger.Nested depth call := by
  induction made with
  | start pending =>
      have owned := (List.cons_subset.mp pending.starts_subset).1
      exact Nested.of_start owned pending.swept.owned
  | nested _ further induction => exact induction.further further

/-- Every call that the check makes comes to its end, in the room that the owners leave to it: with
one call to begin with, at most one more is open than there are owners. A further call is made on an
owner, when exactly one more owner has been visited. When a walk of the check has found nothing, so
that the check moves on, its path is empty again, its visited threads lead to visited threads only,
and from each of them the steps come to a name that is not held. -/
theorem walks_end_within_owners (ledger : Ledger) :
    (∀ starts visited, ledger.Pending starts visited →
        ledger.cycle? = ledger.walkEach starts visited) ∧
      (∀ depth call, ledger.Made depth call →
        depth ≤ ledger.owners.toFinset.card + 1 ∧
        ledger.walkWithin (ledger.owners.toFinset.card + 1 - (depth - 1)) call =
          some (ledger.walk call.thread call.visited call.path) ∧
        ∀ inner, ledger.nested? call = some inner →
          inner.thread ∈ ledger.owners ∧ call.thread ∈ ledger.owners ∧
          call.thread ∉ call.visited ∧ inner.visited = call.thread :: call.visited) ∧
      ∀ start later visited, ledger.Pending (start :: later) visited →
        (ledger.walk start visited []).found = none →
        (ledger.walk start visited []).path = [] ∧
        (∀ thread ∈ (ledger.walk start visited []).visited, ∀ next,
          ledger.successor? thread = some next →
            next ∈ (ledger.walk start visited []).visited) ∧
        ∀ thread ∈ (ledger.walk start visited []).visited, ∃ steps last,
          ledger.stepsFrom? thread steps = some last ∧
            ledger.ownerOf? last.asResource = none := by
  constructor
  · intro starts visited pending
    exact pending.cycle_eq
  constructor
  · intro depth call made
    have nested := made.is_nested
    have room := nested.card_unseen_add
    have positive := nested.depthEq
    have bounded : depth ≤ ledger.owners.toFinset.card + 1 := by omega
    have ends := walk_within_eq nested.owned
      (by omega : (ledger.unseen call.visited).card < ledger.owners.toFinset.card + 1 - (depth - 1))
    have grown : ∀ inner, ledger.nested? call = some inner →
        inner.thread ∈ ledger.owners ∧ call.thread ∈ ledger.owners ∧
          call.thread ∉ call.visited ∧ inner.visited = call.thread :: call.visited := by
      intro inner further
      obtain ⟨_, fresh, next, step, rfl⟩ := nested_eq_some_iff.mp further
      exact ⟨mem_owners_of_successor step, nested.owned, fresh, rfl⟩
    exact ⟨bounded, ends, grown⟩
  · intro start later visited pending missed
    have owned := (List.cons_subset.mp pending.starts_subset).1
    obtain ⟨restored, swept⟩ := pending.swept.after_walk owned missed
    have closed : ∀ thread ∈ (ledger.walk start visited []).visited, ∀ next,
        ledger.successor? thread = some next →
          next ∈ (ledger.walk start visited []).visited := by
      intro thread member next step
      exact swept.closed thread member (by simp) next step
    have stops : ∀ thread ∈ (ledger.walk start visited []).visited, ∃ steps last,
        ledger.stepsFrom? thread steps = some last ∧
          ledger.ownerOf? last.asResource = none := by
      intro thread member
      have stops := (swept.accounted thread member).resolve_left (by simp)
      exact exists_last_of_not_never_stops stops
    exact ⟨restored, closed, stops⟩

/-- Two owners in a row, and a thread that leads to them. -/
def openChain : Ledger :=
  ofList [(⟨"A"⟩, ⟨"B"⟩), (⟨"B"⟩, ⟨"C"⟩), (⟨"D"⟩, ⟨"A"⟩)]

theorem walks_end_within_owners_openChain :
    openChain.nested? ⟨⟨"B"⟩, [], []⟩ = some ⟨⟨"C"⟩, [⟨"B"⟩], [⟨"B"⟩]⟩ ∧
      (⟨"C"⟩ : ThreadId) ∈ openChain.owners ∧
      openChain.Made 2 ⟨⟨"C"⟩, [⟨"B"⟩], [⟨"B"⟩]⟩ ∧
      openChain.walkWithin 3 ⟨⟨"C"⟩, [⟨"B"⟩], [⟨"B"⟩]⟩ =
        some (openChain.walk ⟨"C"⟩ [⟨"B"⟩] [⟨"B"⟩]) ∧
      (openChain.walk ⟨"B"⟩ [] []).found = none ∧
      (openChain.walk ⟨"B"⟩ [] []).path = [] ∧
      (⟨"C"⟩ : ThreadId) ∈ (openChain.walk ⟨"B"⟩ [] []).visited ∧
      ∃ steps last, openChain.stepsFrom? ⟨"B"⟩ steps = some last ∧
        openChain.ownerOf? last.asResource = none := by
  have owners : openChain.owners = [⟨"B"⟩, ⟨"C"⟩, ⟨"A"⟩] := by decide
  have pending : openChain.Pending [⟨"B"⟩, ⟨"C"⟩, ⟨"A"⟩] [] := owners ▸ Pending.first
  have further : openChain.nested? ⟨⟨"B"⟩, [], []⟩ = some ⟨⟨"C"⟩, [⟨"B"⟩], [⟨"B"⟩]⟩ := by decide
  have last : openChain.nested? ⟨⟨"C"⟩, [⟨"B"⟩], [⟨"B"⟩]⟩ = none := by decide
  have walked : openChain.walk ⟨"B"⟩ [] [] = ⟨none, [⟨"C"⟩, ⟨"B"⟩], []⟩ := by
    have resumed := walk_eq_resumed further
    rw [walk_eq_ended last] at resumed
    exact resumed.trans (by decide)
  have missed : (openChain.walk ⟨"B"⟩ [] []).found = none := by rw [walked]
  have visited : (⟨"B"⟩ : ThreadId) ∈ (openChain.walk ⟨"B"⟩ [] []).visited := by simp [walked]
  have made := Made.start pending
  have room : openChain.owners.toFinset.card + 1 - (2 - 1) = 3 := by decide
  obtain ⟨_, calls, between⟩ := walks_end_within_owners openChain
  have owned := ((calls 1 _ made).2.2 _ further).1
  have within := (calls 2 _ (made.nested further)).2.1
  rw [room] at within
  obtain ⟨restored, closed, stops⟩ := between _ _ _ pending missed
  exact ⟨further, owned, made.nested further, within, missed, restored,
    closed _ visited _ (by decide), stops _ visited⟩

-- Two owners that lead to each other take three calls.
example : (ofList [(⟨"A"⟩, ⟨"B"⟩), (⟨"B"⟩, ⟨"A"⟩)]).walkWithin 2 ⟨⟨"B"⟩, [], []⟩ = none := by decide

end Ledger

end LockExplorer
