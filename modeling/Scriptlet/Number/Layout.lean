import Scriptlet.Number.Shortest

/-! How a number is written: a layout says which numbers are written positionally, how
exponents look and what stands for the values that are not finite. -/
namespace Scriptlet.Number

structure Layout where
  /-- Whether a number is written without an exponent, given the power of ten of its first
  digit. -/
  positional : Int → Bool
  /-- Write `.0` behind a whole number in positional form. -/
  pointKept : Bool
  /-- Write a plus sign before an exponent that is not negative. -/
  plusSign : Bool
  tie : Tie
  nan : String
  infinity : Bool → String

def zeros (count : Nat) : String := String.ofList (List.replicate count '0')

def signed (negative : Bool) (text : String) : String := if negative then "-" ++ text else text

/-- Digits with a point, where the first digit stands at `10 ^ lead`. -/
def Layout.point (layout : Layout) (digits : List Char) (lead : Int) : String :=
  if lead < 0 then "0." ++ zeros (-lead - 1).toNat ++ String.ofList digits
  else
    let whole := lead.toNat + 1
    if digits.length ≤ whole then
      String.ofList digits ++ zeros (whole - digits.length) ++ (if layout.pointKept then ".0" else "")
    else String.ofList (digits.take whole) ++ "." ++ String.ofList (digits.drop whole)

/-- One digit, the others behind a point, and the exponent. -/
def Layout.scientific (layout : Layout) (digits : List Char) (lead : Int) : String :=
  let head := String.ofList (digits.take 1)
  let rest := digits.drop 1
  let fraction := if rest.isEmpty then "" else "." ++ String.ofList rest
  let sign := if lead < 0 then "-" else if layout.plusSign then "+" else ""
  head ++ fraction ++ "e" ++ sign ++ Nat.repr lead.natAbs

def Layout.decimal (layout : Layout) (number : Decimal) : String :=
  let digits := Nat.toDigits 10 number.digits
  let lead := number.exponent + (digits.length - 1 : Nat)
  if layout.positional lead then layout.point digits lead else layout.scientific digits lead

def Layout.write (layout : Layout) (number : Float) : String :=
  match Reading.ofFloat number with
  | .nan => layout.nan
  | .infinite negative => layout.infinity negative
  | .finite negative mantissa exponent =>
    signed negative (layout.decimal (shortest layout.tie mantissa exponent))

end Scriptlet.Number
