import Scriptlet.Number.Layout

/-! Run time values. -/
namespace Scriptlet

/-- A value: a 64 bit integer, a double precision number, a text or a truth value. -/
inductive Value where
  | int (number : Int64)
  | double (number : Float)
  | string (text : String)
  | bool (truth : Bool)
deriving DecidableEq

inductive ValueType where
  | int
  | double
  | string
  | bool
deriving DecidableEq, Repr

def ValueType.name : ValueType → String
  | int => "int"
  | double => "double"
  | string => "string"
  | bool => "bool"

/-- Printed numbers: always positional, whole numbers without a point, and of two equally
near decimals the larger. -/
def printedNumber : Number.Layout where
  positional := fun _ => true
  pointKept := false
  plusSign := false
  tie := .upward
  nan := "NaN"
  infinity := fun negative => Number.signed negative "inf"

def truthText (truth : Bool) : String := if truth then "true" else "false"

namespace Value

def type : Value → ValueType
  | int _ => .int
  | double _ => .double
  | string _ => .string
  | bool _ => .bool

/-- What printing a value writes. -/
def text : Value → String
  | int number => toString number.toInt
  | double number => printedNumber.write number
  | string text => text
  | bool truth => truthText truth

/-- Only `true` counts as true; every other value, of any type, does not. -/
def isTruthy : Value → Bool
  | bool truth => truth
  | _ => false

/-- A numeric value in double precision. -/
def number? : Value → Option Float
  | int number => some (Number.ofInt number.toInt)
  | double number => some number
  | _ => none

end Value

end Scriptlet
