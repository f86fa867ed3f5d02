import Mathlib.Logic.Relation
import Scriptlet.Proofs.Except
import Scriptlet.Run.Evaluate

/-! The nodes of a program, which are what has a line, and what can go wrong at each of them. -/
namespace Scriptlet

open Run

/-- A part of a program that has a line. -/
inductive Node where
  | expression (tree : Expr)
  | statement (tree : Stmt)
  | function (tree : Function)

namespace Node

def line : Node → Nat
  | expression tree => tree.line
  | statement tree => tree.line
  | function tree => tree.line

/-- The nodes right below a node. -/
def parts : Node → List Node
  | expression (.literal _ _) => []
  | expression (.identifier _ _) => []
  | expression (.unary _ operand _) => [expression operand]
  | expression (.binary left _ right _) => [expression left, expression right]
  | expression (.member object _ _) => [expression object]
  | expression (.call callee arguments _) => expression callee :: arguments.map expression
  | expression (.parenthesized inner _) => [expression inner]
  | expression (.assign _ value _) => [expression value]
  | statement (.block statements _) => statements.map statement
  | statement (.evaluate tree _) => [expression tree]
  | statement (.declare _ _ initializer _) => initializer.toList.map expression
  | statement (.returns value _) => value.toList.map expression
  | statement (.branch condition whenTrue whenFalse _) =>
    expression condition :: statement whenTrue :: whenFalse.toList.map statement
  | statement (.loop condition body _ _) => [expression condition, statement body]
  | statement (.leave _) => []
  | statement (.proceed _) => []
  | statement (.function name parameters result body bodyLine line) =>
    [function ⟨name, parameters, result, body, bodyLine, line⟩]
  | function tree => tree.body.map statement

/-- A node as a part of another, at any depth. -/
def Within (part whole : Node) : Prop :=
  Relation.ReflTransGen (fun outer inner => inner ∈ outer.parts) whole part

/-- What can go wrong at a node itself, and not at one below it. -/
inductive Raises : Node → Cause → Prop where
  | undefined {name : String} {line : Nat} :
      Raises (expression (.identifier name line)) (.scope (.undefinedVariable name))
  | unassigned {name : String} {line : Nat} :
      Raises (expression (.identifier name line)) (.scope (.unassignedVariable name))
  | operand {operator : UnaryOperator} {operand : Expr} {line : Nat} {type : ValueType} :
      Raises (expression (.unary operator operand line)) (.operator (.operand operator type))
  | operands {left right : Expr} {operator : BinaryOperator} {line : Nat}
      {first second : ValueType} :
      Raises (expression (.binary left operator right line))
        (.operator (.operands operator first second))
  | zeroDivisor {left right : Expr} {operator : BinaryOperator} {line : Nat} :
      Raises (expression (.binary left operator right line)) (.operator (.zeroDivisor operator))
  | target {name : String} {value : Expr} {line : Nat} :
      Raises (expression (.assign name value line)) (.scope (.undefinedVariable name))
  | member {object : Expr} {name : String} {line : Nat} :
      Raises (expression (.member object name line)) (.memberAccess name)
  | unnamed {callee : Expr} {arguments : List Expr} {line : Nat}
      (noName : calleeName? callee = none) :
      Raises (expression (.call callee arguments line)) .unnamedCallee
  | print {callee : Expr} {arguments : List Expr} {line : Nat} {name reason : String}
      (named : calleeName? callee = some name) (builtin : Builtin.ofName? name = some .print) :
      Raises (expression (.call callee arguments line)) (.writeRefused reason)
  | unknown {callee : Expr} {arguments : List Expr} {line : Nat} {name : String}
      (named : calleeName? callee = some name) :
      Raises (expression (.call callee arguments line)) (.scope (.undefinedFunction name))
  | arity {callee : Expr} {arguments : List Expr} {line : Nat} {name : String} {expected : Nat}
      (named : calleeName? callee = some name) (different : arguments.length ≠ expected) :
      Raises (expression (.call callee arguments line)) (.arity name expected arguments.length)
  | noValue {callee : Expr} {arguments : List Expr} {line : Nat} {name : String}
      (named : calleeName? callee = some name) :
      Raises (expression (.call callee arguments line)) (.noValue name)
  | declared {name : String} {type : DeclaredType} {initializer : Option Expr} {line : Nat} :
      Raises (statement (.declare name type initializer line)) (.scope (.variableDefined name))
  | nested {name : String} {parameters : List Parameter} {result : DeclaredType}
      {body : List Stmt} {bodyLine line : Nat} :
      Raises (statement (.function name parameters result body bodyLine line))
        (.nestedFunction name)
  | parameter {tree : Function} {parameter : Parameter} (member : parameter ∈ tree.parameters) :
      Raises (function tree) (.scope (.variableDefined parameter.name))
  | escape {tree : Function} : Raises (function tree) (.escapedLoopControl tree.name)
  | entry {tree : Function} (needed : tree.parameters ≠ []) :
      Raises (function tree) (.arity tree.name tree.parameters.length 0)

end Node

theorem UnaryOperator.fault_of_apply {operator : UnaryOperator} {value : Value}
    {fault : OperatorFault} (failed : operator.apply value = .error fault) :
    fault = .operand operator value.type := by
  unfold apply at failed
  split at failed <;> cases failed
  rfl

namespace BinaryOperator

variable {operator : BinaryOperator} {left right : Value} {fault : OperatorFault}

private theorem fault_of_arithmetic {onInts : Int64 → Int64 → Int64}
    {onDoubles : Float → Float → Float}
    (failed : arithmetic operator onInts onDoubles left right = .error fault) :
    fault = .operands operator left.type right.type := by
  unfold arithmetic at failed
  split at failed
  · cases failed
  · split at failed <;> cases failed
    rfl

private theorem fault_of_division {onInts : Int64 → Int64 → Int64}
    {onDoubles : Float → Float → Float}
    (failed : division operator onInts onDoubles left right = .error fault) :
    fault = .operands operator left.type right.type ∨ fault = .zeroDivisor operator := by
  unfold division at failed
  split at failed
  · cases failed
    exact .inr rfl
  · exact .inl (fault_of_arithmetic failed)

private theorem fault_of_equality (failed : equality operator left right = .error fault) :
    fault = .operands operator left.type right.type := by
  unfold equality at failed
  split at failed <;> cases failed
  rfl

private theorem fault_of_compare (failed : compare operator left right = .error fault) :
    fault = .operands operator left.type right.type := by
  unfold compare at failed
  split at failed
  · cases failed
  · split at failed <;> cases failed
    rfl

private theorem fault_of_logical {onBools : Bool → Bool → Bool}
    (failed : logical operator onBools left right = .error fault) :
    fault = .operands operator left.type right.type := by
  unfold logical at failed
  split at failed <;> cases failed
  rfl

theorem fault_of_apply (failed : operator.apply left right = .error fault) :
    fault = .operands operator left.type right.type ∨ fault = .zeroDivisor operator := by
  unfold apply at failed
  split at failed
  · cases failed
  · exact .inl (fault_of_arithmetic failed)
  · exact .inl (fault_of_arithmetic failed)
  · exact .inl (fault_of_arithmetic failed)
  · exact fault_of_division failed
  · exact fault_of_division failed
  · exact .inl (fault_of_equality (Except.error_of_map failed))
  · exact .inl (fault_of_equality (Except.error_of_map failed))
  · exact .inl (fault_of_compare (Except.error_of_map failed))
  · exact .inl (fault_of_compare (Except.error_of_map failed))
  · exact .inl (fault_of_compare (Except.error_of_map failed))
  · exact .inl (fault_of_compare (Except.error_of_map failed))
  · exact .inl (fault_of_logical failed)
  · exact .inl (fault_of_logical failed)

end BinaryOperator

end Scriptlet
