import Scriptlet.Value.Operator

/-! Programs as trees. Every node records a line of its source. -/
namespace Scriptlet

/-- A declared type: a name behind which any number of pointer stars stand. Types are
written and printed, and nothing checks them. -/
structure DeclaredType where
  name : String
  stars : Nat
deriving DecidableEq, Repr

structure Parameter where
  name : String
  type : DeclaredType
deriving DecidableEq, Repr

inductive Expr where
  | literal (value : Value) (line : Nat)
  | identifier (name : String) (line : Nat)
  | unary (operator : UnaryOperator) (operand : Expr) (line : Nat)
  | binary (left : Expr) (operator : BinaryOperator) (right : Expr) (line : Nat)
  | member (object : Expr) (name : String) (line : Nat)
  | call (callee : Expr) (arguments : List Expr) (line : Nat)
  | parenthesized (inner : Expr) (line : Nat)
  | assign (name : String) (value : Expr) (line : Nat)

/-- Statements. A loop that was written with an increment keeps that increment as the last
statement of its body and is marked by `stepped`. -/
inductive Stmt where
  | block (statements : List Stmt) (line : Nat)
  | evaluate (expression : Expr) (line : Nat)
  | declare (name : String) (type : DeclaredType) (initializer : Option Expr) (line : Nat)
  | returns (value : Option Expr) (line : Nat)
  | branch (condition : Expr) (whenTrue : Stmt) (whenFalse : Option Stmt) (line : Nat)
  | loop (condition : Expr) (body : Stmt) (stepped : Bool) (line : Nat)
  | leave (line : Nat)
  | proceed (line : Nat)
  | function (name : String) (parameters : List Parameter) (result : DeclaredType)
      (body : List Stmt) (bodyLine : Nat) (line : Nat)

/-- A function as it is called. -/
structure Function where
  name : String
  parameters : List Parameter
  result : DeclaredType
  body : List Stmt
  bodyLine : Nat
  line : Nat

structure Program where
  declarations : List Stmt

def Expr.line : Expr → Nat
  | literal _ line => line
  | identifier _ line => line
  | unary _ _ line => line
  | binary _ _ _ line => line
  | member _ _ line => line
  | call _ _ line => line
  | parenthesized _ line => line
  | assign _ _ line => line

def Stmt.line : Stmt → Nat
  | block _ line => line
  | evaluate _ line => line
  | declare _ _ _ line => line
  | returns _ line => line
  | branch _ _ _ line => line
  | loop _ _ _ line => line
  | leave line => line
  | proceed line => line
  | function _ _ _ _ _ line => line

end Scriptlet
