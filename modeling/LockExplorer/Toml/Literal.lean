import LockExplorer.Toml.Moment
import LockExplorer.Toml.Number
import LockExplorer.Toml.Value

/-!
# Keys and written values

A key is a path of names with dots between them. A name is bare, of ASCII letters, digits, dashes
and underscores, or a string on one line. Spaces may surround every name.

Reads a value where a document writes one out: a string, a number, a truth value, a date or time, an
array between brackets or a table between braces. Arrays may span lines and hold comments; a table
between braces stands on one line. Nesting is bounded.
-/

namespace LockExplorer.Toml

/-! ## Keys -/

def isBare (character : Char) : Bool :=
  character.isAlphanum || character == '_' || character == '-'

def name : Reader String := fun input =>
  match input.takeWhile isBare with
  | [] => lineText input
  | bare => some (String.ofList bare, input.dropWhile isBare)

def pathBound : Nat := 79

/-- Reads a path of at most so many names, with the spaces around them. -/
def pathWithin : Nat → Reader (List String)
  | 0, _ => none
  | more + 1, input =>
      match name (skipSpace input) with
      | none => none
      | some (first, rest) =>
          match skipSpace rest with
          | '.' :: after =>
              match pathWithin more after with
              | some (others, rest) => some (first :: others, rest)
              | none => none
          | rest => some ([first], rest)

def path : Reader (List String) :=
  pathWithin pathBound

/-! ## Scalars -/

/-- Whether a character may stand in a token other than a string. -/
def isTokenPart (character : Char) : Bool :=
  character.isAlphanum || character == '_' || character == '-' || character == '+' ||
    character == '.' || character == ':'

def scalarOfToken? (token : List Char) : Option Value :=
  if token = ['t', 'r', 'u', 'e'] then some (.boolean true)
  else if token = ['f', 'a', 'l', 's', 'e'] then some (.boolean false)
  else if isMoment token then some .moment
  else
    match integer? token with
    | some number => some (.integer number)
    | none => ((decimal? token).or (special? token)).map .decimal

/-- Reads a token and its value. After a date, a space and a digit announce a time. -/
def scalar : Reader Value := fun input =>
  let token := input.takeWhile isTokenPart
  let rest := input.dropWhile isTokenPart
  match isDate token, rest with
  | true, ' ' :: digit :: later =>
      if digit.isDigit then
        let time := (digit :: later).takeWhile isTokenPart
        if isZonedTime time then some (.moment, (digit :: later).dropWhile isTokenPart) else none
      else some (.moment, rest)
  | _, _ => (scalarOfToken? token).map fun value => (value, rest)

/-! ## Arrays and tables -/

/-- Reads the elements of an array up to its closing bracket. There are at most as many as the first
argument says. -/
def elements (value : Reader Value) : Nat → Reader (List Value)
  | 0, _ => none
  | more + 1, input =>
      match skipLines false input with
      | ']' :: rest => some ([], rest)
      | input =>
          match value input with
          | none => none
          | some (first, rest) =>
              match skipLines false rest with
              | ']' :: rest => some ([first], rest)
              | ',' :: rest =>
                  match elements value more rest with
                  | some (others, rest) => some (first :: others, rest)
                  | none => none
              | _ => none

def assignment (value : Reader Value) : Reader (List String × Value) := fun input =>
  match path input with
  | some (key, '=' :: rest) =>
      match value (skipSpace rest) with
      | some (value, rest) => some ((key, value), rest)
      | none => none
  | _ => none

/-- Reads the assignments of a table up to its closing brace, at least one. -/
def assignments (value : Reader Value) : Nat → Reader (List (List String × Value))
  | 0, _ => none
  | more + 1, input =>
      match assignment value input with
      | none => none
      | some (first, rest) =>
          match skipSpace rest with
          | '\x7d' :: rest => some ([first], rest)
          | ',' :: rest =>
              match assignments value more rest with
              | some (others, rest) => some (first :: others, rest)
              | none => none
          | _ => none

/-- Reads what follows the opening brace of a table. -/
def inlineTable (value : Reader Value) : Reader Value := fun input =>
  match skipSpace input with
  | '\x7d' :: rest => some (.table .inline [], rest)
  | input =>
      match assignments value input.length input with
      | none => none
      | some (assignments, rest) =>
          match Entries.assignAll [] assignments with
          | some entries => some (.table .inline entries, rest)
          | none => none

/-- Reads a value with at most so many arrays and tables inside one another. -/
def valueWithin : Nat → Reader Value
  | nesting, input =>
      match input with
      | '[' :: rest =>
          match nesting with
          | 0 => none
          | nesting + 1 =>
              match elements (valueWithin nesting) (rest.length + 1) rest with
              | some (values, rest) => some (.array values, rest)
              | none => none
      | '\x7b' :: rest =>
          match nesting with
          | 0 => none
          | nesting + 1 => inlineTable (valueWithin nesting) rest
      | '"' :: _ | '\x27' :: _ => (text input).map fun read => (.string read.1, read.2)
      | _ => scalar input

def nestingBound : Nat := 79

def value : Reader Value :=
  valueWithin nestingBound

end LockExplorer.Toml
