import LockExplorer.Decimal

/-!
# Values of a document

A value is a scalar, an array, a table, or the array of tables that repeated headers build up. The
entries of a table stand in the order in which they were defined. A table remembers how it came
about, because that decides what may still be added to it.

Keys and headers define each thing once. A dotted key may add to a table that dotted keys brought
about; a header may pass through tables and into the newest table of an array of tables; a table
that was only implied may still get a header of its own, and then counts as defined there.
-/

namespace LockExplorer.Toml

inductive Origin where
  /-- By a header of its own. -/
  | header
  /-- As a parent in a longer header. -/
  | implied
  /-- As a parent in a dotted key. -/
  | dotted
  /-- Written out as a value; nothing can be added to it. -/
  | inline
deriving DecidableEq

inductive Value where
  | string (text : String)
  | integer (number : Int)
  | decimal (number : Decimal.Binary64)
  | boolean (truth : Bool)
  /-- A date or a time, of which only the presence is kept. -/
  | moment
  | array (elements : List Value)
  /-- The entries of each table of an array of tables. -/
  | tables (elements : List (List (String × Value)))
  | table (origin : Origin) (entries : List (String × Value))

abbrev Entries := List (String × Value)

namespace Entries

def get? (entries : Entries) (key : String) : Option Value :=
  entries.lookup key

/-- Another value under a key that is there, in the same place. -/
def replace (entries : Entries) (key : String) (value : Value) : Entries :=
  entries.map fun entry => if entry.1 == key then (key, value) else entry

def erase (entries : Entries) (key : String) : Entries :=
  entries.filter fun entry => entry.1 != key

def add (entries : Entries) (key : String) (value : Value) : Entries :=
  entries ++ [(key, value)]

end Entries

namespace Value

def elements? : Value → Option (List Value)
  | .array elements => some elements
  | .tables elements => some (elements.map (.table .header))
  | _ => none

/-- The entries of a table. A date or a time counts as a table without known keys. -/
def entries? : Value → Option Entries
  | .table _ entries => some entries
  | .moment => some []
  | _ => none

end Value

/-! ## Building tables -/

namespace Entries

/-- Defines the value at the end of a path. `direct` tells whether these entries may themselves get
a new key, as opposed to only lying on the way to a table that may. -/
def assign (direct : Bool) (entries : Entries) : List String → Value → Option Entries
  | [], _ => none
  | [key], value =>
      if direct && (entries.get? key).isNone then some (entries.add key value) else none
  | key :: path, value =>
      match entries.get? key with
      | none => (assign true [] path value).map fun inner => entries.add key (.table .dotted inner)
      | some (.table .dotted inner) =>
          (assign true inner path value).map fun inner =>
            entries.replace key (.table .dotted inner)
      | some (.table .implied inner) =>
          (assign false inner path value).map fun inner =>
            entries.replace key (.table .implied inner)
      | some (.tables elements) =>
          match elements.getLast? with
          | some newest =>
              (assign false newest path value).map fun newest =>
                entries.replace key (.tables (elements.dropLast ++ [newest]))
          | none => none
      | some _ => none

def assignAll (entries : Entries) (assignments : List (List String × Value)) : Option Entries :=
  assignments.foldlM
    (fun entries assignment => entries.assign true assignment.1 assignment.2) entries

/-- Changes the table at the end of a header's path. Tables that are missing on the way come about
by implication. -/
def within (change : Entries → Option Entries) (entries : Entries) :
    List String → Option Entries
  | [] => change entries
  | key :: path =>
      match entries.get? key with
      | none => (within change [] path).map fun inner => entries.add key (.table .implied inner)
      | some (.table origin inner) =>
          if origin = .inline then none
          else
            (within change inner path).map fun inner => entries.replace key (.table origin inner)
      | some (.tables elements) =>
          match elements.getLast? with
          | some newest =>
              (within change newest path).map fun newest =>
                entries.replace key (.tables (elements.dropLast ++ [newest]))
          | none => none
      | some _ => none

/-- Defines a table under a key and fills it. An implied table becomes a defined one and moves to
the end. -/
def defineTable (key : String) (assignments : List (List String × Value)) (entries : Entries) :
    Option Entries :=
  match entries.get? key with
  | none =>
      (assignAll [] assignments).map fun body => entries.add key (.table .header body)
  | some (.table .implied inner) =>
      (assignAll inner assignments).map fun body =>
        (entries.erase key).add key (.table .header body)
  | some _ => none

def extendTables (key : String) (assignments : List (List String × Value)) (entries : Entries) :
    Option Entries :=
  match entries.get? key with
  | none => (assignAll [] assignments).map fun body => entries.add key (.tables [body])
  | some (.tables elements) =>
      (assignAll [] assignments).map fun body => entries.replace key (.tables (elements ++ [body]))
  | some _ => none

end Entries

end LockExplorer.Toml
