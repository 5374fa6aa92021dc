import LockExplorer.Proofs.OwnershipCycle.Chain
import LockExplorer.Run

/-!
# What the cycle check finds

The check is exact: it reports nothing precisely when no thread lies on a cycle, and otherwise it
names the place where the first endless chain, by resource, enters its cycle. Visited threads are
skipped safely because, apart from those on the present path, all of them have chains that stop.
-/

namespace LockExplorer

namespace Ledger

variable {ledger : Ledger} {start thread next : ThreadId} {path visited : List ThreadId}

/-! ## One walk -/

/-- The path of a walk: the threads that the steps from its start have passed, each of them once,
and the thread they have come to. -/
structure Trail (ledger : Ledger) (start : ThreadId) (path : List ThreadId) (thread : ThreadId) :
    Prop where
  reached : ledger.stepsFrom? start path.length = some thread
  passed : ∀ earlier, earlier ∈ path ↔
    ∃ steps < path.length, ledger.stepsFrom? start steps = some earlier
  distinct : ∀ first second, first < second → second < path.length →
    ledger.stepsFrom? start first ≠ ledger.stepsFrom? start second

namespace Trail

theorem nil (ledger : Ledger) (start : ThreadId) : ledger.Trail start [] start := by
  constructor
  case reached => rfl
  case passed => simp
  case distinct =>
    intro first second _ bounded
    simp at bounded

/-- A thread that is new to the path is passed when its step is taken. -/
theorem cons (trail : ledger.Trail start path thread) (fresh : thread ∉ path)
    (step : ledger.successor? thread = some next) :
    ledger.Trail start (thread :: path) next := by
  constructor
  case reached =>
    rw [List.length_cons, stepsFrom?, trail.reached, Option.bind_some, step]
  case passed =>
    intro earlier
    rw [List.mem_cons, trail.passed, List.length_cons]
    constructor
    · rintro (same | ⟨steps, bounded, leads⟩)
      · exact ⟨path.length, by omega, by rw [trail.reached, same]⟩
      · exact ⟨steps, by omega, leads⟩
    · rintro ⟨steps, bounded, leads⟩
      rcases Nat.lt_succ_iff_lt_or_eq.mp bounded with before | last
      · exact Or.inr ⟨steps, before, leads⟩
      · rw [last, trail.reached] at leads
        exact Or.inl (Option.some.inj leads).symm
  case distinct =>
    intro first second less bounded same
    rw [List.length_cons] at bounded
    rcases Nat.lt_succ_iff_lt_or_eq.mp bounded with before | last
    · exact trail.distinct first second less before same
    · rw [last, trail.reached] at same
      exact fresh ((trail.passed thread).mpr ⟨first, by omega, same⟩)

/-- The first thread that a walk meets again is the first of its chain that lies on a cycle. -/
theorem enters_at (trail : ledger.Trail start path thread) (again : thread ∈ path) :
    ledger.EntersAt start thread := by
  obtain ⟨first, bounded, leads⟩ := (trail.passed thread).mp again
  have returns : ledger.stepsFrom? thread (path.length - first) = some thread := by
    rw [← steps_from_trans leads, Nat.add_sub_cancel' (by omega)]
    exact trail.reached
  refine ⟨first, leads, ⟨path.length - first, by omega, returns⟩, ?_⟩
  intro earlier before other otherLeads cycle
  -- An earlier thread on a cycle would be reached again from `thread`, hence by fewer steps than
  -- one round takes, and so it would stand on the path twice.
  have toThread : ledger.stepsFrom? other (first - earlier) = some thread := by
    rw [← steps_from_trans otherLeads, Nat.add_sub_cancel' (by omega)]
    exact leads
  obtain ⟨more, back⟩ := cycle.returns toThread
  rw [steps_from_mod returns, ← steps_from_trans leads] at back
  have short : more % (path.length - first) < path.length - first := Nat.mod_lt _ (by omega)
  apply trail.distinct earlier (first + more % (path.length - first)) (by omega) (by omega)
  rw [otherLeads, back]

end Trail

/-- Every visited thread is on the path or has a chain that stops. -/
def Accounted (ledger : Ledger) (visited path : List ThreadId) : Prop :=
  ∀ known ∈ visited, known ∈ path ∨ ¬ ledger.NeverStops known

namespace Accounted

theorem push (accounted : ledger.Accounted visited path) (thread : ThreadId) :
    ledger.Accounted (thread :: visited) (thread :: path) := by
  intro known member
  rcases List.mem_cons.mp member with same | before
  · exact Or.inl (same ▸ List.mem_cons_self)
  · exact (accounted known before).imp (List.mem_cons_of_mem _) id

theorem pop (accounted : ledger.Accounted visited (thread :: path))
    (stops : ¬ ledger.NeverStops thread) : ledger.Accounted visited path := by
  intro known member
  rcases accounted known member with onPath | knownStops
  · rcases List.mem_cons.mp onPath with same | before
    · exact Or.inr (same ▸ stops)
    · exact Or.inl before
  · exact Or.inr knownStops

end Accounted

/-- A walk either finds the entry of its start's chain into a cycle, or it comes back with its path
as it was and with the knowledge that its thread's chain stops. -/
theorem walk_spec (trail : ledger.Trail start path thread)
    (accounted : ledger.Accounted visited path) :
    (∃ entry, (ledger.walk thread visited path).found = some entry ∧
        ledger.EntersAt start entry) ∨
      ((ledger.walk thread visited path).found = none ∧
        (ledger.walk thread visited path).path = path ∧ ¬ ledger.NeverStops thread ∧
        ledger.Accounted (ledger.walk thread visited path).visited path) := by
  fun_induction walk ledger thread visited path with
  | case1 thread visited path again => exact Or.inl ⟨thread, rfl, trail.enters_at again⟩
  | case2 thread visited path fresh seen =>
      have stops := (accounted thread seen).resolve_left fresh
      exact Or.inr ⟨rfl, rfl, stops, accounted⟩
  | case3 thread visited path fresh unseen stuck =>
      have stops := not_never_stops_of_no_successor stuck
      exact Or.inr ⟨rfl, rfl, stops, (accounted.push thread).pop stops⟩
  | case4 thread visited path fresh unseen next step onward entry found induction =>
      rcases induction (trail.cons fresh step) (accounted.push thread) with hit | ⟨missed, _⟩
      · exact Or.inl hit
      · have contrary := found.symm.trans missed
        cases contrary
  | case5 thread visited path fresh unseen next step onward missed induction =>
      rcases induction (trail.cons fresh step) (accounted.push thread) with
        ⟨entry, found, _⟩ | ⟨_, restored, stops, onwardAccounted⟩
      · have contrary := missed.symm.trans found
        cases contrary
      · have threadStops : ¬ ledger.NeverStops thread := by
          rw [never_stops_iff_successor step]
          exact stops
        refine Or.inr ⟨missed, ?_, threadStops, onwardAccounted.pop threadStops⟩
        change (ledger.walk next (thread :: visited) (thread :: path)).path.erase thread = path
        rw [restored, List.erase_cons_head]

/-! ## All walks -/

/-- Walking from each thread in turn finds the entry for the first one whose chain never stops. -/
theorem walk_each_spec (starts : List ThreadId) (accounted : ledger.Accounted visited []) :
    (ledger.walkEach starts visited = none ∧ ∀ start ∈ starts, ¬ ledger.NeverStops start) ∨
      ∃ earlier start later entry, starts = earlier ++ start :: later ∧
        (∀ other ∈ earlier, ¬ ledger.NeverStops other) ∧
        ledger.walkEach starts visited = some entry ∧ ledger.EntersAt start entry := by
  induction starts generalizing visited with
  | nil => exact Or.inl ⟨rfl, by simp⟩
  | cons start later induction =>
      rw [walkEach]
      rcases walk_spec (Trail.nil ledger start) accounted with
        ⟨entry, found, enters⟩ | ⟨missed, _, stops, laterAccounted⟩
      · refine Or.inr ⟨[], start, later, entry, rfl, by simp, ?_, enters⟩
        simp only [found]
      · simp only [missed]
        rcases induction laterAccounted with ⟨noneFound, allStop⟩ |
          ⟨earlier, endless, rest, entry, parts, before, found, enters⟩
        · exact Or.inl ⟨noneFound, List.forall_mem_cons.mpr ⟨stops, allStop⟩⟩
        · refine Or.inr ⟨start :: earlier, endless, rest, entry, ?_, ?_, found, enters⟩
          · rw [parts, List.cons_append]
          · exact List.forall_mem_cons.mpr ⟨stops, before⟩

/-- The thread to be named: where the chain from the owner of a resource enters a cycle, for the
least resource whose owner's chain never stops. -/
def Named (ledger : Ledger) (thread : ThreadId) : Prop :=
  ∃ resource owner, ledger.ownerOf? resource = some owner ∧ ledger.NeverStops owner ∧
    (∀ other otherOwner, ledger.ownerOf? other = some otherOwner →
      ledger.NeverStops otherOwner → ¬ other < resource) ∧
    ledger.EntersAt owner thread

theorem Named.on_cycle (named : ledger.Named thread) : ledger.OnCycle thread := by
  obtain ⟨_, _, _, _, _, _, _, cycle, _⟩ := named
  exact cycle

theorem Named.unique {left right : ThreadId} (first : ledger.Named left)
    (second : ledger.Named right) : left = right := by
  obtain ⟨leftKey, leftOwner, leftHeld, leftNever, leftLeast, leftEnters⟩ := first
  obtain ⟨rightKey, rightOwner, rightHeld, rightNever, rightLeast, rightEnters⟩ := second
  have sameKey : leftKey = rightKey :=
    Resource.eq_of_not_lt (rightLeast leftKey leftOwner leftHeld leftNever)
      (leftLeast rightKey rightOwner rightHeld rightNever)
  rw [sameKey, rightHeld] at leftHeld
  rw [← Option.some.inj leftHeld] at leftEnters
  exact leftEnters.unique rightEnters

/-- The first owner, by resource, whose chain never stops decides which thread is named. -/
theorem named_of_first_endless {earlier later : List ThreadId} {owner entry : ThreadId}
    (parts : ledger.owners = earlier ++ owner :: later)
    (before : ∀ other ∈ earlier, ¬ ledger.NeverStops other)
    (enters : ledger.EntersAt owner entry) : ledger.Named entry := by
  obtain ⟨front, back, split, frontOwners, backOwners⟩ := List.map_eq_append_iff.mp parts
  obtain ⟨⟨resource, holder⟩, rest, backParts, holderEq, _⟩ := List.map_eq_cons_iff.mp backOwners
  change holder = owner at holderEq
  rw [backParts, holderEq] at split
  have held : ledger.ownerOf? resource = some owner := by
    rw [owner_of_eq_some_iff, split]
    simp
  refine ⟨resource, owner, held, enters.never_stops, ?_, enters⟩
  intro other otherOwner otherHeld otherNever less
  have member := owner_of_eq_some_iff.mp otherHeld
  have ascending := ledger.ascending
  rw [split] at member ascending
  rcases List.mem_append.mp member with inFront | inBack
  · apply before otherOwner _ otherNever
    rw [← frontOwners]
    exact List.mem_map.mpr ⟨_, inFront, rfl⟩
  · -- Entries from `resource` on have keys that are not below it.
    rcases List.mem_cons.mp inBack with same | behind
    · rw [(Prod.mk.inj same).1] at less
      exact Resource.lt_irrefl _ less
    · have above := (List.pairwise_cons.mp (List.pairwise_append.mp ascending).2.1).1 _ behind
      exact Resource.lt_irrefl _ (Resource.lt_trans less above)

theorem cycle_spec (ledger : Ledger) :
    (ledger.cycle? = none ∧ ∀ thread, ¬ ledger.OnCycle thread) ∨
      ∃ thread, ledger.cycle? = some thread ∧ ledger.Named thread := by
  have nothing : ledger.Accounted [] [] := by
    intro known member
    simp at member
  rcases walk_each_spec ledger.owners nothing with ⟨noneFound, allStop⟩ |
    ⟨earlier, owner, later, entry, parts, before, found, enters⟩
  · refine Or.inl ⟨noneFound, ?_⟩
    intro thread cycle
    exact allStop thread cycle.mem_owners cycle.never_stops
  · exact Or.inr ⟨entry, found, named_of_first_endless parts before enters⟩

example : (Ledger.ofList [(⟨"A"⟩, ⟨"B"⟩), (⟨"B"⟩, ⟨"A"⟩)]).cycle? = some ⟨"B"⟩ := by cbv

end Ledger

namespace Simulation

/-- Exactly when no thread lies on a cycle, the check finds nothing and leaves the log alone.
Otherwise one thread is determined as the one to name, and the check gives this thread and adds the
one line that names it. -/
theorem check_exact (simulation : Simulation) :
    ((simulation.check.1 = none ∧ simulation.check.2.log = simulation.log) ↔
        ∀ thread, ¬ simulation.ledger.OnCycle thread) ∧
      ((∃ thread, simulation.ledger.OnCycle thread) →
        ∃ named, (∀ thread, simulation.ledger.Named thread ↔ thread = named) ∧
          simulation.check.1 = some named ∧
          simulation.check.2.log.toList = simulation.log.toList ++
            ["Deadlock detected involving thread: " ++ named.name]) := by
  rcases simulation.ledger.cycle_spec with ⟨missed, acyclic⟩ | ⟨named, found, isNamed⟩
  · have unchanged : simulation.check = (none, simulation) := by
      rw [check, missed]
    rw [unchanged]
    constructor
    · exact ⟨fun _ => acyclic, fun _ => ⟨rfl, rfl⟩⟩
    · rintro ⟨thread, cycle⟩
      exact absurd cycle (acyclic thread)
  · have reported : simulation.check.1 = some named ∧
        simulation.check.2.log = simulation.log.append (Line.deadlock named) := by
      rw [check, found]
      exact ⟨rfl, rfl⟩
    constructor
    · constructor
      · rintro ⟨missed, _⟩
        rw [reported.1] at missed
        cases missed
      · intro acyclic
        exact absurd isNamed.on_cycle (acyclic named)
    · intro _
      refine ⟨named, ?_, reported.1, ?_⟩
      · intro thread
        constructor
        · intro other
          exact other.unique isNamed
        · intro same
          exact same ▸ isNamed
      · rw [reported.2, Log.to_list_append]
        rfl

/-- A chain that stops, then one that runs into a cycle of two. -/
def tailedCycle : Ledger :=
  Ledger.ofList [(⟨"A"⟩, ⟨"X"⟩), (⟨"B"⟩, ⟨"T"⟩), (⟨"T"⟩, ⟨"U"⟩), (⟨"U"⟩, ⟨"V"⟩), (⟨"V"⟩, ⟨"U"⟩)]

theorem check_exact_tailedCycle :
    (∃ thread, tailedCycle.OnCycle thread) ∧
      ∃ named, (∀ thread, tailedCycle.Named thread ↔ thread = named) ∧
        (check ⟨tailedCycle, Log.empty, #[]⟩).1 = some named ∧
        (check ⟨tailedCycle, Log.empty, #[]⟩).2.log.toList =
          [] ++ ["Deadlock detected involving thread: " ++ named.name] := by
  have cycle : ∃ thread, tailedCycle.OnCycle thread := ⟨⟨"U"⟩, 2, by decide, by decide⟩
  exact ⟨cycle, (check_exact ⟨tailedCycle, Log.empty, #[]⟩).2 cycle⟩

end Simulation

end LockExplorer
