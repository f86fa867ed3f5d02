/-! Double precision numbers as exact binary fractions. A finite number is a signed
integer mantissa times a power of two; rounding goes the other way, from an exact
fraction to the nearest number. -/
namespace Scriptlet.Number

/-- What a double precision number stands for: a finite one is
`± mantissa * 2 ^ exponent`. -/
inductive Reading where
  | nan
  | infinite (negative : Bool)
  | finite (negative : Bool) (mantissa : Nat) (exponent : Int)
deriving DecidableEq, Repr

/-- Two to a power, and one for a negative power: `m * 2 ^ e` is the quotient of
`m * twoTo e` and `twoTo (-e)`. -/
def twoTo (power : Int) : Nat := Nat.pow 2 power.toNat

/-- Ten to a power, and one for a negative power. -/
def tenTo (power : Int) : Nat := Nat.pow 10 power.toNat

/-- The exponent of the smallest positive number, which all subnormal numbers share. -/
def leastExponent : Int := -1074

/-- The leading bit of a mantissa, which its pattern leaves out. -/
def leadingBit : Nat := 0x10000000000000

/-- The exponent field of what is not finite. -/
def lastField : Nat := 0x7ff

def signBit : Nat := 0x8000000000000000

/-- Split a 64 bit pattern into sign, exponent field and fraction. -/
def Reading.ofBits (bits : Nat) : Reading :=
  let negative := decide (signBit ≤ bits)
  let field := bits / leadingBit % (lastField + 1)
  let fraction := bits % leadingBit
  if field = lastField then
    if fraction = 0 then .infinite negative else .nan
  else if field = 0 then .finite negative fraction leastExponent
  else .finite negative (leadingBit + fraction) (leastExponent + (field - 1 : Nat))

def Reading.ofFloat (number : Float) : Reading := Reading.ofBits number.toBits.toNat

/-- The integer nearest to a quotient; a half goes to the even neighbour. -/
def roundHalfEven (numerator denominator : Nat) : Nat :=
  let whole := numerator / denominator
  let rest := numerator % denominator
  if 2 * rest < denominator ∨ (2 * rest = denominator ∧ whole % 2 = 0) then whole else whole + 1

/-- The exponent at which a positive quotient has a mantissa of 53 bits, or the least
exponent if that is larger. -/
def scaleOf (numerator denominator : Nat) : Int :=
  let near : Int := (numerator.log2 : Int) - denominator.log2 - 52
  let short := numerator * twoTo (-near) < leadingBit * denominator * twoTo near
  max leastExponent (if short then near - 1 else near)

/-- The bits of the number nearest to a non-negative quotient, with a half going to the
even mantissa. What lies above the largest finite number becomes infinity. -/
def nearestBits (numerator denominator : Nat) : Nat :=
  if numerator = 0 then 0
  else
    let scale := scaleOf numerator denominator
    let mantissa := roundHalfEven (numerator * twoTo (-scale)) (denominator * twoTo scale)
    min ((scale - leastExponent).toNat * leadingBit + mantissa) (lastField * leadingBit)

/-- The number nearest to `± numerator / denominator`. -/
def nearest (negative : Bool) (numerator denominator : Nat) : Float :=
  let sign := if negative then signBit else 0
  Float.ofBits (sign + nearestBits numerator denominator).toUInt64

/-- The number nearest to a decimal fraction with the given digits, the last `places` of
them behind the point. -/
def ofDecimal (digits places : Nat) : Float := nearest false digits (tenTo places)

/-- The number nearest to an integer. -/
def ofInt (whole : Int) : Float := nearest (whole < 0) whole.natAbs 1

def notANumber : Float := Float.ofBits 0x7ff8000000000000

/-- The exact remainder of a division whose quotient is cut off toward zero. It has the
sign of the dividend; there is none for an infinite dividend or a zero divisor. -/
def remainder (dividend divisor : Float) : Float :=
  match Reading.ofFloat dividend, Reading.ofFloat divisor with
  | .finite _ _ _, .infinite _ => dividend
  | .finite negative mantissa exponent, .finite _ unit power =>
    if unit = 0 then notANumber
    else
      let low := min exponent power
      let rest := mantissa * twoTo (exponent - low) % (unit * twoTo (power - low))
      nearest negative (rest * twoTo low) (twoTo (-low))
  | _, _ => notANumber

end Scriptlet.Number
