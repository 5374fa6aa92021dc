/-!
# How a document writes strings

A string is written in the plainest style that can hold it: between double quotes, between single
quotes, or over several lines with either. Escapes are used only where no style can do without.
-/

namespace LockExplorer.Toml

inductive Style where
  | basic
  | literal
  | multilineBasic
  | multilineLiteral
deriving DecidableEq

/-- Whether a character can only be written as an escape: a control character other than a tab and a
line feed. -/
def needsEscape (character : Char) : Bool :=
  (character.toNat < 0x20 && character != '\t' && character != '\n') || character.toNat == 0x7F

/-- The length of the longest run of a character, given the length of the run before the text. -/
def longestRun (character : Char) (current : Nat) : List Char → Nat
  | [] => current
  | first :: rest =>
      if first == character then longestRun character (current + 1) rest
      else max current (longestRun character 0 rest)

def Style.of (content : List Char) : Style :=
  let escaped := content.any needsEscape
  let backslash := content.contains '\\'
  let lines := content.contains '\n'
  let doubles := longestRun '"' 0 content
  let singles := longestRun '\x27' 0 content
  if !escaped && !backslash && doubles == 0 && !lines then .basic
  else if !escaped && singles == 0 && !lines then .literal
  else if !escaped && !backslash && doubles ≤ 2 then .multilineBasic
  else if !escaped && singles ≤ 2 then .multilineLiteral
  else if lines then .multilineBasic
  else .basic

def hexDigit (value : Nat) : Char :=
  if value < 10 then Char.ofNat (0x30 + value) else Char.ofNat (0x37 + value)

/-- A character between double quotes, where a quote and a line feed are treated apart. -/
def writeChar (character : Char) : List Char :=
  if character == '\x08' then ['\\', 'b']
  else if character == '\t' then ['\\', 't']
  else if character == '\x0c' then ['\\', 'f']
  else if character == '\r' then ['\\', 'r']
  else if character == '\\' then ['\\', '\\']
  else if needsEscape character then
    ['\\', 'u', '0', '0', hexDigit (character.toNat / 16), hexDigit (character.toNat % 16)]
  else [character]

def writeBasic (content : List Char) : List Char :=
  content.flatMap fun character =>
    if character == '"' then ['\\', '"']
    else if character == '\n' then ['\\', 'n']
    else writeChar character

/-- A string over several lines between double quotes, without the quotes. Of quotes in a row, every
third is escaped; the first argument counts those before the text. -/
def writeMultilineBasic (quotes : Nat) : List Char → List Char
  | [] => []
  | '"' :: rest =>
      if quotes < 2 then '"' :: writeMultilineBasic (quotes + 1) rest
      else '\\' :: '"' :: writeMultilineBasic 0 rest
  | character :: rest => writeChar character ++ writeMultilineBasic 0 rest

/-- The line feed that opens a string over several lines, if it has more than one. -/
def openingLine (content : List Char) : List Char :=
  if content.contains '\n' then ['\n'] else []

def Style.write (style : Style) (content : List Char) : List Char :=
  match style with
  | .basic => '"' :: writeBasic content ++ ['"']
  | .literal => '\x27' :: content ++ ['\x27']
  | .multilineBasic =>
      ['"', '"', '"'] ++ openingLine content ++ writeMultilineBasic 0 content ++ ['"', '"', '"']
  | .multilineLiteral =>
      ['\x27', '\x27', '\x27'] ++ openingLine content ++ content ++ ['\x27', '\x27', '\x27']

def writeText (content : String) : List Char :=
  (Style.of content.toList).write content.toList

/-- An array of strings. One with several elements takes a line for each. -/
def writeTexts : List String → List Char
  | [] => ['[', ']']
  | [element] => '[' :: writeText element ++ [']']
  | elements =>
      let line (element : String) : List Char :=
        [' ', ' ', ' ', ' '] ++ writeText element ++ [',', '\n']
      ['[', '\n'] ++ elements.flatMap line ++ [']']

end LockExplorer.Toml
