import Scriptlet.Program.Basic
import Scriptlet.Token.Basic

/-! Programs as S-expressions. A tree becomes nested lists of atoms; lines are left out, and
strings stand between quotes as they are. -/
namespace Scriptlet

inductive SExpr where
  | atom (text : String)
  | list (items : List SExpr)

namespace SExpr

mutual

def render : SExpr → String
  | atom text => text
  | list [] => "()"
  | list (first :: rest) => "(" ++ first.render ++ renderRest rest ++ ")"

def renderRest : List SExpr → String
  | [] => ""
  | item :: rest => " " ++ item.render ++ renderRest rest

end

end SExpr

open SExpr (atom list)

def Value.toSExpr : Value → SExpr
  | string text => atom (quoted text)
  | double number => atom (listedNumber.write number)
  | value => atom value.text

/-- The name of a type with its stars. -/
def DeclaredType.text (type : DeclaredType) : String :=
  type.name ++ String.ofList (List.replicate type.stars '*')

def Parameter.toSExpr (parameter : Parameter) : SExpr :=
  list [atom parameter.name, atom parameter.type.text]

mutual

def Expr.toSExpr : Expr → SExpr
  | .literal value _ => value.toSExpr
  | .identifier name _ => atom name
  | .unary operator operand _ => list [atom operator.symbol, operand.toSExpr]
  | .binary left operator right _ => list [atom operator.symbol, left.toSExpr, right.toSExpr]
  | .member object name _ => list [atom ".", object.toSExpr, atom name]
  | .call callee arguments _ => list (atom "call" :: callee.toSExpr :: Expr.toSExprs arguments)
  | .parenthesized inner _ => list [atom "group", inner.toSExpr]
  | .assign name value _ => list [atom "=", atom name, value.toSExpr]

def Expr.toSExprs : List Expr → List SExpr
  | [] => []
  | expression :: rest => expression.toSExpr :: Expr.toSExprs rest

end

mutual

def Stmt.toSExpr : Stmt → SExpr
  | .block statements _ => list (atom "block" :: Stmt.toSExprs statements)
  | .evaluate expression _ => expression.toSExpr
  | .declare name type none _ => list [atom "var", atom name, atom type.text]
  | .declare name type (some initializer) _ =>
    list [atom "var", atom name, atom type.text, initializer.toSExpr]
  | .returns none _ => list [atom "return"]
  | .returns (some value) _ => list [atom "return", value.toSExpr]
  | .branch condition whenTrue none _ =>
    list [atom "if", condition.toSExpr, whenTrue.toSExpr]
  | .branch condition whenTrue (some whenFalse) _ =>
    list [atom "if", condition.toSExpr, whenTrue.toSExpr, whenFalse.toSExpr]
  | .loop condition body stepped _ =>
    list [atom (if stepped then "for-while" else "while"), condition.toSExpr, body.toSExpr]
  | .leave _ => list [atom "break"]
  | .proceed _ => list [atom "continue"]
  | .function name parameters result body _ _ =>
    list (atom "func" :: atom name :: list (parameters.map Parameter.toSExpr) :: atom result.text ::
      Stmt.toSExprs body)

def Stmt.toSExprs : List Stmt → List SExpr
  | [] => []
  | statement :: rest => statement.toSExpr :: Stmt.toSExprs rest

end

/-- One line for each declaration. -/
def Program.sexp (program : Program) : String :=
  String.join (program.declarations.map fun declaration => declaration.toSExpr.render ++ "\n")

end Scriptlet
