import LockExplorer.Text

/-!
# Threads and their actions

Resources and threads are named by arbitrary text. The two kinds of name are kept apart by their
types; the one place where they meet is `ThreadId.asResource`, which the ownership cycle check uses.

One step of a thread either tries to take a resource, gives a resource back, or is a generic step
that is only narrated. A scenario spells a step as a token: `LOCK` or `UNLOCK`, at least one blank,
and the name of a resource; every other token is a generic step labelled with the whole token.
`ofToken` is `parse_action` with its `keyword_argument`, and `toToken` is how an `Action` is
displayed.

A thread has a name, a fixed list of actions, and a cursor: the number of actions already replayed.
Its operations are those of `Thread`: `from_tokens`, `next_action`, `reset` and `is_finished`.
-/

namespace LockExplorer

/-! ## Names -/

structure Resource where
  name : String
deriving DecidableEq

/-- Names a thread. Different threads of one exploration may carry the same name. -/
structure ThreadId where
  name : String
deriving DecidableEq

/-- Resources are ordered by the code points of their names. -/
instance : LT Resource where
  lt left right := left.name < right.name

instance (left right : Resource) : Decidable (left < right) :=
  inferInstanceAs (Decidable (left.name < right.name))

/-- The resource that is spelled like this thread. -/
def ThreadId.asResource (thread : ThreadId) : Resource :=
  ⟨thread.name⟩

namespace Resource

theorem lt_irrefl (resource : Resource) : ¬ resource < resource :=
  String.lt_irrefl resource.name

theorem lt_trans {first second third : Resource} (left : first < second)
    (right : second < third) : first < third :=
  String.lt_trans (a := first.name) left right

/-- Two resources that are not ordered either way are the same resource. -/
theorem eq_of_not_lt {first second : Resource} (left : ¬ first < second)
    (right : ¬ second < first) : first = second := by
  have names : first.name = second.name :=
    String.le_antisymm (String.not_lt.mp right) (String.not_lt.mp left)
  cases first
  cases second
  exact congrArg Resource.mk names

end Resource

/-! ## Actions -/

inductive Action where
  /-- Try to take the resource; never waits. -/
  | lock (resource : Resource)
  /-- Give the resource back, whoever holds it. -/
  | unlock (resource : Resource)
  /-- Anything else. -/
  | generic (label : String)
deriving DecidableEq

namespace Action

def lockKeyword : String := "LOCK"

def unlockKeyword : String := "UNLOCK"

/-- The token's text after the keyword, trimmed. There is none when the token does not begin with
the keyword, when no blank follows the keyword, or when only blanks follow. -/
def argument? (keyword : String) (token : List Char) : Option String :=
  match keyword.toList.isPrefixOf? token with
  | some (separator :: rest) =>
      let argument := Text.trim (separator :: rest)
      if Text.isBlank separator && !argument.isEmpty then some (String.ofList argument) else none
  | _ => none

def ofToken (token : String) : Action :=
  match argument? lockKeyword token.toList with
  | some name => .lock ⟨name⟩
  | none =>
      match argument? unlockKeyword token.toList with
      | some name => .unlock ⟨name⟩
      | none => .generic token

/-- The token that spells an action, with a single space after a keyword. -/
def toToken : Action → String
  | .lock resource => lockKeyword ++ " " ++ resource.name
  | .unlock resource => unlockKeyword ++ " " ++ resource.name
  | .generic label => label

example : ofToken "LOCK   db  " = .lock ⟨"db"⟩ := by decide
example : ofToken "UNLOCK  " = .generic "UNLOCK  " := by decide
example : ofToken "LOCKR1" = .generic "LOCKR1" := by decide

end Action

/-! ## Threads -/

structure Thread where
  id : ThreadId
  actions : List Action
  cursor : Nat := 0
deriving DecidableEq

namespace Thread

def ofTokens (name : String) (tokens : List String) : Thread :=
  { id := ⟨name⟩, actions := tokens.map Action.ofToken }

def isFinished (thread : Thread) : Bool :=
  decide (thread.actions.length ≤ thread.cursor)

def reset (thread : Thread) : Thread :=
  { thread with cursor := 0 }

/-- The next action, and the thread after it; nothing once the thread is finished. -/
def next? (thread : Thread) : Option (Action × Thread) :=
  match thread.actions[thread.cursor]? with
  | some action => some (action, { thread with cursor := thread.cursor + 1 })
  | none => none

def remaining (thread : Thread) : Nat :=
  thread.actions.length - thread.cursor

theorem remaining_lt_of_next {thread later : Thread} {action : Action}
    (next : thread.next? = some (action, later)) : later.remaining < thread.remaining := by
  unfold next? at next
  split at next
  · next found =>
      obtain ⟨bounded, _⟩ := List.getElem?_eq_some_iff.mp found
      cases next
      simp only [remaining]
      omega
  · cases next

end Thread

end LockExplorer
