import LockExplorer.Thread

/-!
# Trace events

Beside the log, an exploration leaves a trace for diagnosis. Each event keeps the values that were
at hand when it arose. It has a severity, belongs to one part of the program, and reads as a message
with named fields: these are the diagnostics of `Explorer::run`, `ThreadRunner::run` and
`DeadlockDetector::check`.
-/

namespace LockExplorer

inductive TraceEvent where
  /-- An exploration of so many threads begins. The total is the number of their orderings, when it
  is small enough to be announced. -/
  | started (threads : Nat) (total : Option Nat) (limit : Option UInt64)
  /-- An ordering is about to run while so many resources are held. -/
  | orderingStarted (index : Nat) (order : List ThreadId) (held : Nat)
  /-- A thread is about to replay an action. -/
  | replaying (thread : ThreadId) (action : Action)
  /-- The resource could not be taken; it belongs to this owner. -/
  | acquisitionFailed (thread : ThreadId) (resource : Resource) (owner : Option ThreadId)
  /-- An ownership cycle was found while so many resources are held. -/
  | cycleDetected (thread : ThreadId) (held : Nat)
  /-- There is another ordering, but the limit forbids it. -/
  | limitReached (explored : Nat)
  /-- The exploration is over, with so many orderings, reports, held resources and log lines. -/
  | finished (explored deadlocks held lines : Nat)
deriving DecidableEq

inductive Severity where
  | trace
  | debug
  | info
  | warning
deriving DecidableEq

/-- The part of the program in which an event arises. -/
inductive Component where
  | exploration
  | run
  | cycleCheck
deriving DecidableEq

namespace TraceEvent

def severity : TraceEvent → Severity
  | .started .. | .finished .. => .info
  | .orderingStarted .. | .acquisitionFailed .. | .limitReached .. => .debug
  | .replaying .. => .trace
  | .cycleDetected .. => .warning

def component : TraceEvent → Component
  | .started .. | .orderingStarted .. | .limitReached .. | .finished .. => .exploration
  | .replaying .. | .acquisitionFailed .. => .run
  | .cycleDetected .. => .cycleCheck

def message : TraceEvent → String
  | .started .. => "starting exploration"
  | .orderingStarted .. => "running permutation"
  | .replaying .. => "replaying action"
  | .acquisitionFailed .. => "lock acquisition failed"
  | .cycleDetected .. => "deadlock cycle detected"
  | .limitReached .. => "permutation limit reached"
  | .finished .. => "exploration finished"

def optionText : Option String → String
  | none => "None"
  | some text => "Some(" ++ text ++ ")"

/-- The names of an ordering, separated by a comma and a space. -/
def orderText (order : List ThreadId) : String :=
  String.intercalate ", " (order.map ThreadId.name)

def fields : TraceEvent → List (String × String)
  | .started threads total limit =>
      [("threads", toString threads), ("total", optionText (total.map fun count => toString count)),
        ("limit", optionText (limit.map fun count => toString count.toNat))]
  | .orderingStarted index order held =>
      [("permutation", toString index), ("order", orderText order), ("held", toString held)]
  | .replaying thread action => [("thread", thread.name), ("action", action.toToken)]
  | .acquisitionFailed thread resource owner =>
      [("thread", thread.name), ("resource", resource.name),
        ("owner", optionText (owner.map fun thread => Text.quote thread.name))]
  | .cycleDetected thread held => [("thread", thread.name), ("held", toString held)]
  | .limitReached explored => [("explored", toString explored)]
  | .finished explored deadlocks held lines =>
      [("explored", toString explored), ("deadlocks", toString deadlocks), ("held", toString held),
        ("lines", toString lines)]

/-! ## Reading an event -/

def field? (event : TraceEvent) (name : String) : Option String :=
  event.fields.lookup name

/-- The event reads as this message, and its fields of these names have these texts. -/
def Shows (event : TraceEvent) (message : String) (shown : List (String × String)) : Prop :=
  event.message = message ∧ ∀ name text, (name, text) ∈ shown → event.field? name = some text

/-- A missing value is not mistaken for one that is there, nor one value for another. -/
theorem option_text_inj {left right : Option String} (same : optionText left = optionText right) :
    left = right := by
  have letters := congrArg String.toList same
  cases left with
  | none =>
      cases right with
      | none => rfl
      | some other => simp [optionText] at letters
  | some text =>
      cases right with
      | none => simp [optionText] at letters
      | some other =>
          have closed : "Some(" ++ text = "Some(" ++ other := (String.append_left_inj ")").mp same
          rw [(String.append_right_inj "Some(").mp closed]

/-- No two fields of an event share a name, so each one is found by its name. -/
theorem field_of_mem_fields (event : TraceEvent) :
    ∀ field ∈ event.fields, event.field? field.1 = some field.2 := by
  cases event <;> simp [fields, field?, List.lookup_cons]

theorem shows_of_subset {event : TraceEvent} {shown : List (String × String)}
    (subset : shown ⊆ event.fields) : event.Shows event.message shown :=
  ⟨rfl, fun _ _ member => event.field_of_mem_fields _ (subset member)⟩

end TraceEvent

end LockExplorer
