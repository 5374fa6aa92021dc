import LockExplorer.Decimal
import LockExplorer.Toml.Text

/-!
# Numbers in a document

A whole number is decimal with an optional sign and no leading zeros, or unsigned with a base mark;
single underscores may stand between digits, and the number has to fit sixty-four bits with a sign.
A decimal number has a fraction, an exponent or both. Each function takes a whole token.
-/

namespace LockExplorer.Toml

/-- The digits of a token in which single underscores may stand between digits. -/
def separatedDigits : List Char → Option (List Char)
  | [] => none
  | [digit] => if digit == '_' then none else some [digit]
  | digit :: '_' :: rest => if digit == '_' then none else (separatedDigits rest).map (digit :: ·)
  | digit :: rest => if digit == '_' then none else (separatedDigits rest).map (digit :: ·)

def separatedValue? (base : Nat) (token : List Char) : Option Nat :=
  match separatedDigits token with
  | some digits => digitsValue? base 0 digits
  | none => none

/-- The value of a decimal token without leading zeros. -/
def plainValue? (token : List Char) : Option Nat :=
  match token with
  | '0' :: _ :: _ => none
  | _ => separatedValue? 10 token

/-- Whether a token is signed as negative, and the token without its sign. -/
def splitSign : List Char → Bool × List Char
  | '+' :: rest => (false, rest)
  | '-' :: rest => (true, rest)
  | token => (false, token)

def fitting? (number : Int) : Option Int :=
  let bound : Int := Nat.pow 2 63
  if -bound ≤ number && number < bound then some number else none

def integer? (token : List Char) : Option Int :=
  match token with
  | '0' :: 'x' :: digits => (separatedValue? 16 digits).bind fun value => fitting? value
  | '0' :: 'o' :: digits => (separatedValue? 8 digits).bind fun value => fitting? value
  | '0' :: 'b' :: digits => (separatedValue? 2 digits).bind fun value => fitting? value
  | _ =>
      let (negative, digits) := splitSign token
      (plainValue? digits).bind fun value => fitting? (if negative then -(value : Int) else value)

def isDigitPart (character : Char) : Bool :=
  character.isDigit || character == '_'

/-- The exponent that ends a decimal token: none of the token left means none was written. -/
def exponent? : List Char → Option Int
  | [] => some 0
  | mark :: rest =>
      if mark == 'e' || mark == 'E' then
        let (negative, digits) := splitSign rest
        (separatedValue? 10 digits).map fun value => if negative then -(value : Int) else value
      else none

/-- The decimal number of a token with a fraction or an exponent. One that is beyond the greatest
number is refused when it is positive. -/
def decimal? (token : List Char) : Option Decimal.Binary64 := do
  let (negative, unsigned) := splitSign token
  let whole := unsigned.takeWhile isDigitPart
  let after := unsigned.dropWhile isDigitPart
  let _ ← plainValue? whole
  let wholeDigits ← separatedDigits whole
  let (places, after) ← match after with
    | '.' :: rest => do
        let places ← separatedDigits (rest.takeWhile isDigitPart)
        some (places, rest.dropWhile isDigitPart)
    | [] => none
    | _ => some ([], after)
  let power ← exponent? after
  let digits ← digitsValue? 10 0 (wholeDigits ++ places)
  let number := Decimal.Binary64.ofDecimal negative digits (power - places.length)
  if number = .infinite false then none else some number

def special? (token : List Char) : Option Decimal.Binary64 :=
  match splitSign token with
  | (negative, ['i', 'n', 'f']) => some (.infinite negative)
  | (_, ['n', 'a', 'n']) => some .notANumber
  | _ => none

end LockExplorer.Toml
