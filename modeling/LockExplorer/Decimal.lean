/-!
# Binary numbers of double precision and their shortest decimals

A decimal is kept as the nearest number with a mantissa of at most fifty-three bits and a bounded
exponent, and of two equally near ones as that with the even mantissa. All of it is exact arithmetic
on natural numbers.

A binary number is shown with the fewest decimal digits that read back as the same number, and among
those with the ones nearest to it; of two equally near the larger. The digits are written out with a
decimal point, never with a power of ten.
-/

namespace LockExplorer.Decimal

/-! ## Reading -/

inductive Binary64 where
  /-- The mantissa times two to the exponent, with a sign that zero has too. -/
  | finite (negative : Bool) (mantissa : Nat) (exponent : Int)
  | infinite (negative : Bool)
  | notANumber
deriving DecidableEq

/-- A power with an exponent of either sign, as a numerator and a denominator. -/
def ratioPower (base : Nat) (exponent : Int) : Nat × Nat :=
  (base.pow exponent.toNat, base.pow (-exponent).toNat)

/-- The whole number nearest to a quotient; of two equally near ones the even one. -/
def roundDiv (numerator denominator : Nat) : Nat :=
  let quotient := numerator / denominator
  let remainder := numerator % denominator
  if denominator < 2 * remainder || (2 * remainder == denominator && quotient % 2 == 1) then
    quotient + 1
  else quotient

def digitCount (number : Nat) : Nat :=
  (Nat.toDigits 10 number).length

namespace Binary64

def mantissaBound : Nat := Nat.pow 2 53

def leastExponent : Int := -1074

def greatestExponent : Int := 971

/-- The exponent of the largest power of two that is not above a positive quotient. -/
def floorLog2 (numerator denominator : Nat) : Int :=
  let estimate : Int := (numerator.log2 : Int) - (denominator.log2 : Int)
  let (up, down) := ratioPower 2 estimate
  if numerator * down < denominator * up then estimate - 1 else estimate

def ofRatio (negative : Bool) (numerator denominator : Nat) : Binary64 :=
  if numerator = 0 then .finite negative 0 leastExponent
  else
    let exponent := max (floorLog2 numerator denominator - 52) leastExponent
    let (up, down) := ratioPower 2 exponent
    let rounded := roundDiv (numerator * down) (denominator * up)
    let (mantissa, exponent) :=
      if rounded = mantissaBound then (mantissaBound / 2, exponent + 1) else (rounded, exponent)
    if greatestExponent < exponent then .infinite negative
    else .finite negative mantissa exponent

/-- The number nearest to some digits times a power of ten. A decimal far beyond the greatest or
below the least number is not multiplied out. -/
def ofDecimal (negative : Bool) (digits : Nat) (power : Int) : Binary64 :=
  let magnitude := (digitCount digits : Int) + power
  if digits = 0 || magnitude < -330 then .finite negative 0 leastExponent
  else if 310 < magnitude then .infinite negative
  else
    let (up, down) := ratioPower 10 power
    ofRatio negative (digits * up) down

end Binary64

/-! ## Showing -/

def floorLog10 (numerator denominator : Nat) : Int :=
  let estimate : Int := (digitCount numerator : Int) - (digitCount denominator : Int)
  let (up, down) := ratioPower 10 estimate
  if numerator * down < denominator * up then estimate - 1 else estimate

/-- The decimals that read back as a positive number are those between two bounds. All three are
multiples of one unit, a quarter of the mantissa's last place. -/
structure Neighbourhood where
  value : Nat
  lower : Nat
  upper : Nat
  /-- Whether the bounds themselves read back. -/
  closed : Bool
  /-- The unit as a numerator and a denominator. -/
  unit : Nat × Nat

/-- The neighbourhood of a positive number. Below a power of two the numbers lie twice as dense. -/
def Neighbourhood.of (mantissa : Nat) (exponent : Int) : Neighbourhood :=
  let denseBelow := mantissa == Binary64.mantissaBound / 2 && Binary64.leastExponent < exponent
  { value := 4 * mantissa
    lower := if denseBelow then 4 * mantissa - 1 else 4 * mantissa - 2
    upper := 4 * mantissa + 2
    closed := mantissa % 2 == 0
    unit := ratioPower 2 (exponent - 2) }

/-- The digits on the grid of a power of ten that read back, if there are any. Only the two grid
points around the value can be the nearest. -/
def Neighbourhood.digits? (around : Neighbourhood) (power : Int) : Option Nat :=
  let (up, down) := ratioPower 10 power
  let grid := up * around.unit.2
  let place (multiple : Nat) : Nat := multiple * around.unit.1 * down
  let reads (digits : Nat) : Bool :=
    let point := digits * grid
    if around.closed then place around.lower ≤ point && point ≤ place around.upper
    else place around.lower < point && point < place around.upper
  let below := place around.value / grid
  let nearerBelow := 2 * (place around.value % grid) < grid
  if reads below && (nearerBelow || !reads (below + 1)) then some below
  else if reads (below + 1) then some (below + 1)
  else none

/-- The shortest digits of a positive number and their power of ten. The search starts one place
above the leading digit, because the nearest decimal may be the next power of ten, and seventeen
digits always suffice. -/
def shortest (mantissa : Nat) (exponent : Int) : Nat × Int :=
  let around := Neighbourhood.of mantissa exponent
  let leading := floorLog10 (around.value * around.unit.1) around.unit.2
  let attempt (count : Nat) : Option (Nat × Int) :=
    let power := leading + 1 - (count : Int)
    (around.digits? power).map fun digits => (digits, power)
  ((List.range 18).findSome? attempt).getD (0, 0)

/-- Digits times a power of ten, written out with a decimal point. -/
def positional (digits : Nat) (power : Int) : String :=
  let written := Nat.toDigits 10 digits
  if 0 ≤ power then
    String.ofList (written ++ List.replicate power.toNat '0') ++ ".0"
  else
    let places := (-power).toNat
    if places < written.length then
      String.ofList (written.take (written.length - places)) ++ "." ++
        String.ofList (written.drop (written.length - places))
    else "0." ++ String.ofList (List.replicate (places - written.length) '0' ++ written)

def Binary64.text : Binary64 → String
  | .finite negative mantissa exponent =>
      let sign := if negative then "-" else ""
      if mantissa = 0 then sign ++ "0.0"
      else
        let (digits, power) := shortest mantissa exponent
        sign ++ positional digits power
  | .infinite negative => if negative then "-inf" else "inf"
  | .notANumber => "NaN"

example : (Binary64.ofDecimal false 1 (-1)).text = "0.1" := by decide +kernel
example : (Binary64.ofDecimal false 1 (-7)).text = "0.0000001" := by decide +kernel
example : (Binary64.ofDecimal true 15 2).text = "-1500.0" := by decide +kernel
example : (Binary64.ofDecimal false 3 (-324)).text = (Binary64.ofDecimal false 5 (-324)).text := by
  decide +kernel

end LockExplorer.Decimal
