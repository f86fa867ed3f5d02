import Scriptlet.Number.Binary

/-! The shortest decimal that reads back as a given binary number. On ever finer decimal
grids the two neighbours of the number are tried; the first grid with a neighbour that
still rounds to the number gives the fewest digits. -/
namespace Scriptlet.Number

/-- What to do with two decimals of equal length and equal distance. -/
inductive Tie where
  | upward
  | toEven
deriving DecidableEq, Repr

/-- The number `digits * 10 ^ exponent`. -/
structure Decimal where
  digits : Nat
  exponent : Int
deriving DecidableEq, Repr

/-- The reals that round to `mantissa * 2 ^ exponent`, in quarters of the last binary
place. Both ends belong to it when the mantissa is even. -/
structure Basin where
  low : Nat
  middle : Nat
  high : Nat
  closed : Bool
deriving DecidableEq, Repr

/-- Below a power of two the neighbouring numbers stand twice as close. -/
def Basin.of (mantissa : Nat) (exponent : Int) : Basin where
  low :=
    if mantissa = leadingBit ∧ leastExponent < exponent then 4 * mantissa - 1
    else 4 * mantissa - 2
  middle := 4 * mantissa
  high := 4 * mantissa + 2
  closed := mantissa % 2 == 0

/-- A decimal grid beside a binary one: a point `n` of the decimal grid and a point `m` of
the binary grid are compared as `n * decimal` and `m * binary`. -/
structure Grid where
  decimal : Nat
  binary : Nat
deriving DecidableEq, Repr

def Grid.of (power exponent : Int) : Grid where
  decimal := tenTo power * twoTo (-exponent)
  binary := tenTo (-power) * twoTo exponent

def Basin.contains (basin : Basin) (grid : Grid) (point : Nat) : Bool :=
  let place := point * grid.decimal
  if basin.closed then
    basin.low * grid.binary ≤ place && place ≤ basin.high * grid.binary
  else
    basin.low * grid.binary < place && place < basin.high * grid.binary

/-- The grid point in the basin that is nearest to its middle, if there is one. -/
def Basin.nearest? (basin : Basin) (tie : Tie) (grid : Grid) : Option Nat :=
  let middle := basin.middle * grid.binary
  let below := middle / grid.decimal
  let above := below + 1
  match basin.contains grid below, basin.contains grid above with
  | false, false => none
  | true, false => some below
  | false, true => some above
  | true, true =>
    let down := middle - below * grid.decimal
    let up := above * grid.decimal - middle
    if down < up then some below
    else if up < down then some above
    else match tie with
      | .upward => some above
      | .toEven => some (if below % 2 = 0 then below else above)

/-- A power of ten above `mantissa * 2 ^ exponent`, and at most two places too large. -/
def powerAbove (mantissa : Nat) (exponent : Int) : Int :=
  let bits := exponent + mantissa.log2 + 1
  max (bits * 30103 / 100000) (bits * 30102 / 100000) + 1

/-- Try the grids `10 ^ power`, `10 ^ (power - 1)`, … -/
def refine (tie : Tie) (mantissa : Nat) (exponent : Int) : Nat → Int → Decimal
  | 0, _ => ⟨0, 0⟩
  | steps + 1, power =>
    match (Basin.of mantissa exponent).nearest? tie (Grid.of power (exponent - 2)) with
    | some digits => ⟨digits, power⟩
    | none => refine tie mantissa exponent steps (power - 1)

/-- The decimal with the fewest digits that rounds to `mantissa * 2 ^ exponent`; seventeen
digits are always enough. -/
def shortest (tie : Tie) (mantissa : Nat) (exponent : Int) : Decimal :=
  if mantissa = 0 then ⟨0, 0⟩
  else refine tie mantissa exponent 20 (powerAbove mantissa exponent)

end Scriptlet.Number
