/-!
# Layout and strings of a document

Between the meaningful parts of a TOML document stand spaces and tabs, comments, and line ends. A
line ends with a line feed, with a carriage return and a line feed, or with the document. Readers
take characters from the front and give back the rest.

A string stands between double quotes, where a backslash starts an escape, or between single quotes,
where every character stands for itself. Three quotes open a string that may span lines: a line end
right after them does not count, and a line end within is always read as a line feed.
-/

namespace LockExplorer.Toml

/-! ## Layout -/

/-- Reads something from the front of a text and gives the rest; nothing if it is malformed. -/
abbrev Reader (α : Type) := List Char → Option (α × List Char)

def isSpace (character : Char) : Bool :=
  character == ' ' || character == '\t'

/-- Whether a character may stand in a comment, in a string, or anywhere else as itself: a tab, a
visible ASCII character or a space, or any character beyond ASCII. -/
def isVisible (character : Char) : Bool :=
  character == '\t' || (0x20 ≤ character.toNat && character.toNat ≠ 0x7F)

def skipSpace (input : List Char) : List Char :=
  input.dropWhile isSpace

def skipComment : List Char → List Char
  | '#' :: rest => rest.dropWhile isVisible
  | input => input

def lineEnd? : List Char → Option (List Char)
  | [] => some []
  | '\n' :: rest => some rest
  | '\r' :: '\n' :: rest => some rest
  | _ => none

/-- The text after the rest of a line on which only spaces and a comment may follow. -/
def endLine? (input : List Char) : Option (List Char) :=
  lineEnd? (skipComment (skipSpace input))

/-- The text after all spaces, line ends and comments. A comment has to end with its line; if it
does not, the text from there on is left. -/
def skipLines (inComment : Bool) : List Char → List Char
  | [] => []
  | '\n' :: rest => skipLines false rest
  | '\r' :: '\n' :: rest => skipLines false rest
  | character :: rest =>
      if inComment then
        if isVisible character then skipLines true rest else character :: rest
      else if character == '#' then skipLines true rest
      else if isSpace character then skipLines false rest
      else character :: rest

/-! ## Escapes -/

def letterEscape : Char → Option Char
  | 'b' => some '\x08'
  | 't' => some '\t'
  | 'n' => some '\n'
  | 'f' => some '\x0c'
  | 'r' => some '\r'
  | '"' => some '"'
  | '\\' => some '\\'
  | _ => none

def digitValue? (base : Nat) (character : Char) : Option Nat :=
  let code := character.toNat
  let value :=
    if 0x30 ≤ code && code ≤ 0x39 then code - 0x30
    else if 0x41 ≤ code && code ≤ 0x46 then code - 0x37
    else if 0x61 ≤ code && code ≤ 0x66 then code - 0x57
    else 16
  if value < base then some value else none

def digitsValue? (base : Nat) (value : Nat) : List Char → Option Nat
  | [] => some value
  | character :: rest =>
      match digitValue? base character with
      | some digit => digitsValue? base (value * base + digit) rest
      | none => none

/-- Reads a character given by exactly so many hexadecimal digits of its code point. -/
def codeEscape (count : Nat) (input : List Char) : Option (Char × List Char) :=
  if count ≤ input.length then
    match digitsValue? 16 0 (input.take count) with
    | some code => if code.isValidChar then some (Char.ofNat code, input.drop count) else none
    | none => none
  else none

def escape : Reader Char
  | [] => none
  | 'u' :: rest => codeEscape 4 rest
  | 'U' :: rest => codeEscape 8 rest
  | letter :: rest =>
      match letterEscape letter with
      | some character => some (character, rest)
      | none => none

theorem code_escape_length {count : Nat} {input rest : List Char} {character : Char}
    (read : codeEscape count input = some (character, rest)) : rest.length ≤ input.length := by
  unfold codeEscape at read
  split at read
  · split at read
    · split at read
      · cases read
        simp
      · cases read
    · cases read
  · cases read

theorem escape_length {input rest : List Char} {character : Char}
    (read : escape input = some (character, rest)) : rest.length < input.length := by
  unfold escape at read
  split at read
  · cases read
  · exact Nat.lt_succ_of_le (code_escape_length read)
  · exact Nat.lt_succ_of_le (code_escape_length read)
  · split at read
    · cases read
      exact Nat.lt_succ_self _
    · cases read

/-! ## Strings on one line -/

/-- Reads on to the closing double quote. The characters read so far are given last first. -/
def basicBody (reversed : List Char) (input : List Char) : Option (String × List Char) :=
  match input with
  | [] => none
  | '"' :: rest => some (String.ofList reversed.reverse, rest)
  | '\\' :: rest =>
      match _read : escape rest with
      | some (character, after) => basicBody (character :: reversed) after
      | none => none
  | character :: rest =>
      if isVisible character then basicBody (character :: reversed) rest else none
termination_by input.length
decreasing_by
  · exact Nat.lt_succ_of_lt (escape_length _read)
  · exact Nat.lt_succ_self _

def literalBody (reversed : List Char) : List Char → Option (String × List Char)
  | [] => none
  | '\x27' :: rest => some (String.ofList reversed.reverse, rest)
  | character :: rest =>
      if isVisible character then literalBody (character :: reversed) rest else none

/-! ## Strings over several lines -/

def dropLineEnd : List Char → List Char
  | '\n' :: rest => rest
  | '\r' :: '\n' :: rest => rest
  | input => input

/-- Closes a string at three quotes of a kind. Up to two more quotes in front of them belong to the
string, so of a run of quotes the last three close. -/
def closing? (quote : Char) (input : List Char) : Option (List Char × List Char) :=
  let run := (input.takeWhile (· == quote)).length
  if run < 3 then none
  else
    let kept := min (run - 3) 2
    some (input.take kept, input.drop (kept + 3))

def skipGap : List Char → List Char
  | [] => []
  | '\r' :: '\n' :: rest => skipGap rest
  | character :: rest =>
      if isSpace character || character == '\n' then skipGap rest else character :: rest

/-- The text after a line end and all blank space that follows it, if a line ends here. -/
def continuation? (input : List Char) : Option (List Char) :=
  match skipSpace input with
  | '\n' :: rest => some (skipGap rest)
  | '\r' :: '\n' :: rest => some (skipGap rest)
  | _ => none

theorem skip_space_length (input : List Char) : (skipSpace input).length ≤ input.length :=
  (List.dropWhile_suffix isSpace).length_le

theorem skip_gap_length (input : List Char) : (skipGap input).length ≤ input.length := by
  fun_induction skipGap input with
  | case1 => exact Nat.le_refl _
  | case2 rest ih => simp only [List.length_cons]; omega
  | case3 character rest _ _ ih => simp only [List.length_cons]; omega
  | case4 => exact Nat.le_refl _

theorem continuation_length {input rest : List Char} (read : continuation? input = some rest) :
    rest.length < input.length := by
  have shorter := skip_space_length input
  unfold continuation? at read
  split at read
  · next line found =>
      cases read
      have gap := skip_gap_length line
      rw [found, List.length_cons] at shorter
      omega
  · next line found =>
      cases read
      have gap := skip_gap_length line
      rw [found, List.length_cons, List.length_cons] at shorter
      omega
  · cases read

/-- Reads on to the closing double quotes. A backslash at the end of a line joins the lines. -/
def multilineBasicBody (reversed : List Char) (input : List Char) : Option (String × List Char) :=
  match closing? '"' input with
  | some (kept, rest) => some (String.ofList (reversed.reverse ++ kept), rest)
  | none =>
      match input with
      | [] => none
      | '\n' :: rest => multilineBasicBody ('\n' :: reversed) rest
      | '\r' :: '\n' :: rest => multilineBasicBody ('\n' :: reversed) rest
      | '\\' :: rest =>
          match _joined : continuation? rest with
          | some after => multilineBasicBody reversed after
          | none =>
              match _read : escape rest with
              | some (character, after) => multilineBasicBody (character :: reversed) after
              | none => none
      | character :: rest =>
          if isVisible character then multilineBasicBody (character :: reversed) rest else none
termination_by input.length
decreasing_by
  · exact Nat.lt_succ_self _
  · exact Nat.lt_succ_of_lt (Nat.lt_succ_self _)
  · exact Nat.lt_succ_of_lt (continuation_length _joined)
  · exact Nat.lt_succ_of_lt (escape_length _read)
  · exact Nat.lt_succ_self _

def multilineLiteralBody (reversed : List Char) (input : List Char) :
    Option (String × List Char) :=
  match closing? '\x27' input with
  | some (kept, rest) => some (String.ofList (reversed.reverse ++ kept), rest)
  | none =>
      match input with
      | [] => none
      | '\n' :: rest => multilineLiteralBody ('\n' :: reversed) rest
      | '\r' :: '\n' :: rest => multilineLiteralBody ('\n' :: reversed) rest
      | character :: rest =>
          if isVisible character then multilineLiteralBody (character :: reversed) rest else none

def lineText : Reader String
  | '"' :: rest => basicBody [] rest
  | '\x27' :: rest => literalBody [] rest
  | _ => none

def text : Reader String
  | '"' :: '"' :: '"' :: rest => multilineBasicBody [] (dropLineEnd rest)
  | '\x27' :: '\x27' :: '\x27' :: rest => multilineLiteralBody [] (dropLineEnd rest)
  | input => lineText input

end LockExplorer.Toml
