import LockExplorer.Scenario
import LockExplorer.Toml.Value

/-!
# From document to scenario

The entries of a document are visited in their order, and within each entry depth first; the first
one that has the wrong shape is reported. Keys that a scenario does not know are passed over. Where
a table with fixed keys is due, an array may give their values in order instead, and what it has
beyond them is passed over too. This is how `Scenario`, `ExploreConfig` and `ThreadConfig` are
deserialized.
-/

namespace LockExplorer.Scenario

open LockExplorer.Toml

/-- What a value is, as far as a report on its shape goes. -/
inductive Kind where
  | integer (number : Int)
  | decimal (number : Decimal.Binary64)
  | boolean (truth : Bool)
  | string (text : String)
  | sequence
  | map
deriving DecidableEq

def Kind.of : Value → Kind
  | .string text => .string text
  | .integer number => .integer number
  | .decimal number => .decimal number
  | .boolean truth => .boolean truth
  | .array _ | .tables _ => .sequence
  | .table .. | .moment => .map

def Kind.description : Kind → String
  | .integer number => "integer `" ++ toString number ++ "`"
  | .decimal number => "floating point `" ++ number.text ++ "`"
  | .boolean truth => "boolean `" ++ (if truth then "true" else "false") ++ "`"
  | .string text => "string " ++ Text.quote text
  | .sequence => "sequence"
  | .map => "map"

inductive Expectation where
  /-- The settings of the exploration. -/
  | settings
  /-- The threads, or the actions of one. -/
  | sequence
  /-- One thread. -/
  | plan
  /-- A name or an action. -/
  | text
  /-- The limit. -/
  | count
deriving DecidableEq

def Expectation.description : Expectation → String
  | .settings => "struct ExploreConfig"
  | .sequence => "a sequence"
  | .plan => "struct ThreadConfig"
  | .text => "a string"
  | .count => "u64"

inductive ShapeError where
  | unexpected (found : Kind) (expected : Expectation)
  /-- A limit below zero. -/
  | negativeLimit (number : Int)
  /-- A thread without a name. -/
  | missingId
  /-- An array without elements in place of a thread. -/
  | emptyPlan
deriving DecidableEq

def ShapeError.message : ShapeError → String
  | .unexpected found expected =>
      "invalid type: " ++ found.description ++ ", expected " ++ expected.description
  | .negativeLimit number =>
      "invalid value: " ++ (Kind.integer number).description ++ ", expected " ++
        Expectation.count.description
  | .missingId => "missing field `id`"
  | .emptyPlan =>
      "invalid length 0, expected " ++ Expectation.plan.description ++ " with 2 elements"

def textOf : Value → Except ShapeError String
  | .string text => .ok text
  | value => .error (.unexpected (Kind.of value) .text)

def limitOf : Value → Except ShapeError UInt64
  | .integer number =>
      if number < 0 then .error (.negativeLimit number) else .ok (UInt64.ofNat number.toNat)
  | value => .error (.unexpected (Kind.of value) .count)

def elementsOf (value : Value) : Except ShapeError (List Value) :=
  match value.elements? with
  | some elements => .ok elements
  | none => .error (.unexpected (Kind.of value) .sequence)

def actionsOf (value : Value) : Except ShapeError (List String) := do
  (← elementsOf value).mapM textOf

def settingsOf (value : Value) : Except ShapeError (Option UInt64) :=
  match value.entries?, value.elements? with
  | some entries, _ =>
      match entries.get? "max_permutations" with
      | some limit => (limitOf limit).map some
      | none => .ok none
  | none, some (limit :: _) => (limitOf limit).map some
  | none, some [] => .ok none
  | none, none => .error (.unexpected (Kind.of value) .settings)

structure PartialPlan where
  id : Option String := none
  actions : List String := []

def PartialPlan.visit (plan : PartialPlan) (entry : String × Value) :
    Except ShapeError PartialPlan :=
  if entry.1 = "id" then (textOf entry.2).map fun id => { plan with id := some id }
  else if entry.1 = "actions" then (actionsOf entry.2).map fun actions => { plan with actions }
  else .ok plan

def planOf (value : Value) : Except ShapeError ThreadPlan :=
  match value.entries?, value.elements? with
  | some entries, _ =>
      match entries.foldlM PartialPlan.visit {} with
      | .ok ⟨some id, actions⟩ => .ok ⟨id, actions⟩
      | .ok ⟨none, _⟩ => .error .missingId
      | .error reason => .error reason
  | none, some [] => .error .emptyPlan
  | none, some [id] => (textOf id).map fun id => ⟨id, []⟩
  | none, some (id :: actions :: _) => do return ⟨← textOf id, ← actionsOf actions⟩
  | none, none => .error (.unexpected (Kind.of value) .plan)

def visit (scenario : Scenario) (entry : String × Value) : Except ShapeError Scenario :=
  if entry.1 = "explore" then (settingsOf entry.2).map fun limit => { scenario with limit }
  else if entry.1 = "threads" then do
    let plans ← (← elementsOf entry.2).mapM planOf
    return { scenario with plans }
  else .ok scenario

def ofEntries (entries : Entries) : Except ShapeError Scenario :=
  entries.foldlM visit {}

end LockExplorer.Scenario
