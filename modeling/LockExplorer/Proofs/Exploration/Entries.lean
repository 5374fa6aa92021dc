import LockExplorer.Proofs.Exploration.SideBySide

/-!
# What the log records

Each line of the log is the text of an entry. An ordering begins with its announcement, a run with a
marker; then come the run's actions, one entry for each, and a further entry where the check after
an action names a thread. The reports can be read off these entries: a run is reported exactly when
such a further entry stands in its block, with the thread that the first of them names.
-/

namespace LockExplorer

inductive Entry where
  | exploring (order : List ThreadId)
  | running (thread : ThreadId)
  | acquired (thread : ThreadId) (resource : Resource)
  | failed (thread : ThreadId) (resource : Resource)
  | released (thread : ThreadId) (resource : Resource)
  | executed (thread : ThreadId) (label : String)
  | deadlock (thread : ThreadId)
deriving DecidableEq

namespace Entry

def text : Entry → String
  | exploring order => Line.exploring order
  | running thread => Line.running thread
  | acquired thread resource => Line.acquired thread resource
  | failed thread resource => Line.failed thread resource
  | released thread resource => Line.released thread resource
  | executed thread label => Line.executed thread label
  | deadlock thread => Line.deadlock thread

def named? : Entry → Option ThreadId
  | deadlock thread => some thread
  | _ => none

inductive Narrates (thread : ThreadId) : Action → Entry → Prop where
  | acquired (resource : Resource) : Narrates thread (.lock resource) (.acquired thread resource)
  | failed (resource : Resource) : Narrates thread (.lock resource) (.failed thread resource)
  | released (resource : Resource) :
      Narrates thread (.unlock resource) (.released thread resource)
  | executed (label : String) : Narrates thread (.generic label) (.executed thread label)

theorem Narrates.named_eq_none {thread : ThreadId} {action : Action} {entry : Entry}
    (narrates : Narrates thread action entry) : entry.named? = none := by
  cases narrates <;> rfl

end Entry

/-! ## The entries of an action -/

namespace Replay

def entry (replay : Replay) : Entry :=
  match replay.action with
  | .lock resource =>
      if replay.failed then .failed replay.thread resource else .acquired replay.thread resource
  | .unlock resource => .released replay.thread resource
  | .generic label => .executed replay.thread label

def entries (replay : Replay) : List Entry :=
  replay.entry :: (replay.found.map Entry.deadlock).toList

theorem narrates_entry (replay : Replay) :
    Entry.Narrates replay.thread replay.action replay.entry := by
  rcases replay with ⟨before, thread, action⟩
  cases action with
  | lock resource =>
      rw [entry]
      dsimp only
      split
      · exact Entry.Narrates.failed resource
      · exact Entry.Narrates.acquired resource
  | unlock resource => exact Entry.Narrates.released resource
  | generic label => exact Entry.Narrates.executed label

theorem text_entry (replay : Replay) :
    replay.entry.text = replay.before.ledger.narration replay.thread replay.action := by
  rcases replay with ⟨before, thread, action⟩
  cases action with
  | lock resource =>
      rw [entry]
      dsimp only
      rw [failed_eq_of_lock rfl, Ledger.narration]
      split <;> rfl
  | unlock resource => rfl
  | generic label => rfl

/-- The action adds its own line, and the check after it one more if it names a thread. -/
theorem log_after (replay : Replay) :
    replay.performed.2.log.toList = replay.before.log.toList ++ [replay.entry.text] ∧
      replay.after.log.toList =
        replay.performed.2.log.toList ++ (replay.found.map Line.deadlock).toList := by
  constructor
  · rw [performed, Simulation.log_perform, text_entry]
    rfl
  · rw [after, Simulation.log_check, found, Simulation.verdict_check]
    rfl

end Replay

/-! ## The entries of a run -/

namespace Simulation

theorem lines_from_eq (simulation : Simulation) (thread : ThreadId) (actions : List Action) :
    simulation.ledger.linesFrom thread actions =
      ((simulation.replays thread actions).flatMap Replay.entries).map Entry.text := by
  induction actions generalizing simulation with
  | nil => rfl
  | cons action later induction =>
      let replay : Replay := ⟨simulation, thread, action⟩
      have next : replay.after.ledger = simulation.ledger.step thread action :=
        replay.ledger_after
      have narration : simulation.ledger.narration thread action = replay.entry.text :=
        replay.text_entry.symm
      have finding : (simulation.ledger.step thread action).finding =
          (replay.found.map Entry.deadlock).toList.map Entry.text := by
        rw [Ledger.finding, replay.found_eq, next]
        cases (simulation.ledger.step thread action).cycle? <;> rfl
      rw [Ledger.linesFrom, replays, List.flatMap_cons, List.map_append, ← induction, next,
        narration, finding]
      rfl

end Simulation

namespace ThreadRun

def block (run : ThreadRun) : List Entry :=
  run.replays.flatMap Replay.entries

def entries (run : ThreadRun) : List Entry :=
  .running run.thread.id :: run.block

theorem lines_eq (run : ThreadRun) : run.lines = run.entries.map Entry.text := by
  rw [lines, entries, List.map_cons]
  congr 1
  exact Simulation.lines_from_eq run.announced run.thread.id run.thread.actions

end ThreadRun

/-! ## The entries of an exploration -/

namespace Exploration

def orderingEntries (runs : List ThreadRun) : List Entry :=
  .exploring (runs.map fun run => run.thread.id) :: runs.flatMap ThreadRun.entries

def entries (threads : List Thread) (limit : Option UInt64) : List Entry :=
  (orderingRuns threads limit).flatMap orderingEntries

theorem ordering_lines_eq (runs : List ThreadRun) :
    orderingLines runs = (orderingEntries runs).map Entry.text := by
  rw [orderingLines, orderingEntries, List.map_cons, List.map_flatMap]
  congr 1
  apply List.flatMap_congr
  intro run _
  exact run.lines_eq

example : entries [{ id := ⟨"A"⟩, actions := [.lock ⟨"A"⟩, .lock ⟨"A"⟩] }] none =
    [.exploring [⟨"A"⟩], .running ⟨"A"⟩, .acquired ⟨"A"⟩ ⟨"A"⟩, .deadlock ⟨"A"⟩,
      .failed ⟨"A"⟩ ⟨"A"⟩, .deadlock ⟨"A"⟩] := by
  decide +kernel

end Exploration

end LockExplorer
