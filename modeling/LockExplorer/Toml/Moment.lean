/-!
# Dates and times in a document

A date is written `1979-05-27` and a time of day `07:32:00`, with any decimals of a second.
A date may be followed by a time, and then by the distance from universal time. Only whether a token
has this form is decided here.
-/

namespace LockExplorer.Toml

def fixedDigits (count : Nat) (input : List Char) : Option (Nat × List Char) :=
  let digits := input.take count
  if digits.length = count && digits.all Char.isDigit then
    let value := digits.foldl (fun value digit => value * 10 + (digit.toNat - '0'.toNat)) 0
    some (value, input.drop count)
  else none

def boundedPair (least greatest : Nat) (input : List Char) : Option (Nat × List Char) :=
  match fixedDigits 2 input with
  | some (value, rest) => if least ≤ value && value ≤ greatest then some (value, rest) else none
  | none => none

def after? (character : Char) : List Char → Option (List Char)
  | first :: rest => if first == character then some rest else none
  | [] => none

def isLeapYear (year : Nat) : Bool :=
  year % 4 == 0 && (year % 100 != 0 || year % 400 == 0)

def daysInMonth (year month : Nat) : Nat :=
  if month == 2 then if isLeapYear year then 29 else 28
  else if month == 4 || month == 6 || month == 9 || month == 11 then 30
  else 31

def afterDate? (input : List Char) : Option (List Char) := do
  let (year, rest) ← fixedDigits 4 input
  let rest ← after? '-' rest
  let (month, rest) ← boundedPair 1 12 rest
  let rest ← after? '-' rest
  let (_, rest) ← boundedPair 1 (daysInMonth year month) rest
  some rest

/-- The text after the decimals of a second, of which there has to be one after a point. -/
def afterDecimals? : List Char → Option (List Char)
  | '.' :: digit :: rest => if digit.isDigit then some (rest.dropWhile Char.isDigit) else none
  | '.' :: [] => none
  | input => some input

/-- The text after a time of day; a minute may have a leap second. -/
def afterTime? (input : List Char) : Option (List Char) := do
  let (_, rest) ← boundedPair 0 23 input
  let rest ← after? ':' rest
  let (_, rest) ← boundedPair 0 59 rest
  let rest ← after? ':' rest
  let (_, rest) ← boundedPair 0 60 rest
  afterDecimals? rest

/-- Whether a text is a distance from universal time: none at all, `Z`, or hours and minutes. -/
def isOffset : List Char → Bool
  | [] | ['Z'] | ['z'] => true
  | sign :: rest =>
      (sign == '+' || sign == '-') &&
        ((boundedPair 0 23 rest).bind fun hour => (after? ':' hour.2).bind fun minutes =>
          boundedPair 0 59 minutes).any fun minute => minute.2.isEmpty

def isDate (token : List Char) : Bool :=
  (afterDate? token).any List.isEmpty

/-- Whether a token is a time of day with an optional distance from universal time. -/
def isZonedTime (token : List Char) : Bool :=
  (afterTime? token).any isOffset

/-- Whether a token is a date, a time of day, or a date and a time joined by a letter. -/
def isMoment (token : List Char) : Bool :=
  isDate token || (afterTime? token).any List.isEmpty ||
    match afterDate? token with
    | some (mark :: rest) => (mark == 'T' || mark == 't') && isZonedTime rest
    | _ => false

end LockExplorer.Toml
