import LockExplorer.Toml.Literal

/-!
# Documents

A document is a sequence of lines, each with an assignment, with a header, or with nothing but
layout. The assignments before the first header belong to the document itself, and those after a
header to the table that it opens.
-/

namespace LockExplorer.Toml

inductive Statement where
  /-- Opens a table; a repeated header opens one more table of an array. -/
  | header (repeated : Bool) (path : List String)
  /-- Defines the value at the end of a path. -/
  | assignment (path : List String) (value : Value)

def statement : Reader Statement
  | '[' :: '[' :: rest =>
      match path rest with
      | some (key, ']' :: ']' :: rest) => some (.header true key, rest)
      | _ => none
  | '[' :: rest =>
      match path rest with
      | some (key, ']' :: rest) => some (.header false key, rest)
      | _ => none
  | input => (assignment value input).map fun read => (.assignment read.1.1 read.1.2, read.2)

/-- Reads the statements of a text with at most so many lines. -/
def statements : Nat → List Char → Option (List Statement)
  | 0, _ => none
  | more + 1, input =>
      match skipSpace input with
      | [] => some []
      | input =>
          match lineEnd? (skipComment input) with
          | some rest => statements more rest
          | none =>
              match statement input with
              | none => none
              | some (first, rest) =>
                  match endLine? rest with
                  | none => none
                  | some rest => (statements more rest).map (first :: ·)

/-- A header and the assignments up to the next one. -/
structure Section where
  repeated : Bool
  path : List String
  assignments : List (List String × Value)

/-- The assignments before the first header, and the sections. -/
def group : List Statement → List (List String × Value) × List Section
  | [] => ([], [])
  | .assignment path value :: later =>
      let (leading, sections) := group later
      ((path, value) :: leading, sections)
  | .header repeated path :: later =>
      let (assignments, sections) := group later
      ([], ⟨repeated, path, assignments⟩ :: sections)

def Entries.attach (entries : Entries) (added : Section) : Option Entries :=
  match added.path.getLast? with
  | none => none
  | some key =>
      let change := if added.repeated then extendTables key added.assignments
        else defineTable key added.assignments
      entries.within change added.path.dropLast

def Entries.ofStatements (statements : List Statement) : Option Entries :=
  let (leading, sections) := group statements
  match assignAll [] leading with
  | some entries => sections.foldlM attach entries
  | none => none

/-- The text without a byte order mark at its front. -/
def dropMark : List Char → List Char
  | '\ufeff' :: rest => rest
  | input => input

def Entries.ofText? (input : List Char) : Option Entries :=
  let input := dropMark input
  (statements (input.length + 1) input).bind ofStatements

end LockExplorer.Toml
