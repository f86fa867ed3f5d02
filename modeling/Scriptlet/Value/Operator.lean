import Scriptlet.Value.Basic

/-! Operators on values. Integers wrap around at 64 bits; where an integer meets a double
precision number, both are taken in double precision. -/
namespace Scriptlet

inductive UnaryOperator where
  | negate
  | invert
deriving DecidableEq, Repr

inductive BinaryOperator where
  | add
  | subtract
  | multiply
  | divide
  | modulo
  | equal
  | notEqual
  | less
  | lessEqual
  | greater
  | greaterEqual
  | conjunction
  | disjunction
deriving DecidableEq, Repr

def UnaryOperator.symbol : UnaryOperator → String
  | negate => "-"
  | invert => "!"

def BinaryOperator.symbol : BinaryOperator → String
  | add => "+"
  | subtract => "-"
  | multiply => "*"
  | divide => "/"
  | modulo => "%"
  | equal => "=="
  | notEqual => "!="
  | less => "<"
  | lessEqual => "<="
  | greater => ">"
  | greaterEqual => ">="
  | conjunction => "and"
  | disjunction => "or"

/-- Why an operator has no result. -/
inductive OperatorFault where
  | operand (operator : UnaryOperator) (type : ValueType)
  | operands (operator : BinaryOperator) (left right : ValueType)
  | zeroDivisor (operator : BinaryOperator)
deriving DecidableEq, Repr

def OperatorFault.message : OperatorFault → String
  | operand operator type =>
    "invalid operand type for '" ++ operator.symbol ++ "': " ++ type.name
  | operands operator left right =>
    "invalid operand types for '" ++ operator.symbol ++ "': " ++ left.name ++ " and " ++ right.name
  | zeroDivisor operator => "integer division by zero in '" ++ operator.symbol ++ "'"

def UnaryOperator.apply (operator : UnaryOperator) (operand : Value) : Except OperatorFault Value :=
  match operator, operand with
  | negate, .int number => .ok (.int (-number))
  | negate, .double number => .ok (.double (-number))
  | invert, .bool truth => .ok (.bool !truth)
  | _, _ => .error (.operand operator operand.type)

namespace BinaryOperator

/-- Integers are combined as integers, other numbers in double precision. -/
def arithmetic (operator : BinaryOperator) (onInts : Int64 → Int64 → Int64)
    (onDoubles : Float → Float → Float) (left right : Value) : Except OperatorFault Value :=
  match left, right with
  | .int a, .int b => .ok (.int (onInts a b))
  | _, _ =>
    match left.number?, right.number? with
    | some a, some b => .ok (.double (onDoubles a b))
    | _, _ => .error (.operands operator left.type right.type)

/-- Division of integers refuses the divisor zero; in double precision it has a result. -/
def division (operator : BinaryOperator) (onInts : Int64 → Int64 → Int64)
    (onDoubles : Float → Float → Float) (left right : Value) : Except OperatorFault Value :=
  match left, right with
  | .int _, .int 0 => .error (.zeroDivisor operator)
  | _, _ => arithmetic operator onInts onDoubles left right

/-- Equality is defined between values of one type only. -/
def equality (operator : BinaryOperator) (left right : Value) : Except OperatorFault Bool :=
  match left, right with
  | .int a, .int b => .ok (a == b)
  | .double a, .double b => .ok (a == b)
  | .string a, .string b => .ok (a == b)
  | .bool a, .bool b => .ok (a == b)
  | _, _ => .error (.operands operator left.type right.type)

/-- Whether a number is less than another one, and whether it is equal to it. -/
structure Comparison where
  less : Bool
  equal : Bool
deriving DecidableEq, Repr

def compare (operator : BinaryOperator) (left right : Value) : Except OperatorFault Comparison :=
  match left, right with
  | .int a, .int b => .ok ⟨a < b, a == b⟩
  | _, _ =>
    match left.number?, right.number? with
    | some a, some b => .ok ⟨a < b, a == b⟩
    | _, _ => .error (.operands operator left.type right.type)

def logical (operator : BinaryOperator) (onBools : Bool → Bool → Bool) (left right : Value) :
    Except OperatorFault Value :=
  match left, right with
  | .bool a, .bool b => .ok (.bool (onBools a b))
  | _, _ => .error (.operands operator left.type right.type)

/-- The four orderings are derived from "less" and "equal" alone, so between numbers that
are not comparable "greater" and "greater or equal" hold. -/
def apply (operator : BinaryOperator) (left right : Value) : Except OperatorFault Value :=
  match operator, left, right with
  | add, .string a, .string b => .ok (.string (a ++ b))
  | add, _, _ => arithmetic add (· + ·) (· + ·) left right
  | subtract, _, _ => arithmetic subtract (· - ·) (· - ·) left right
  | multiply, _, _ => arithmetic multiply (· * ·) (· * ·) left right
  | divide, _, _ => division divide (· / ·) (· / ·) left right
  | modulo, _, _ => division modulo (· % ·) Number.remainder left right
  | equal, _, _ => (equality equal left right).map .bool
  | notEqual, _, _ => (equality notEqual left right).map fun same => .bool !same
  | less, _, _ => (compare less left right).map fun c => .bool c.less
  | lessEqual, _, _ => (compare lessEqual left right).map fun c => .bool (c.less || c.equal)
  | greater, _, _ => (compare greater left right).map fun c => .bool (!c.less && !c.equal)
  | greaterEqual, _, _ => (compare greaterEqual left right).map fun c => .bool !c.less
  | conjunction, _, _ => logical conjunction (· && ·) left right
  | disjunction, _, _ => logical disjunction (· || ·) left right

end BinaryOperator

end Scriptlet
