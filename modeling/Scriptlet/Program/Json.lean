import Scriptlet.Json
import Scriptlet.Program.Basic

/-! Programs as JSON. Every node is an object whose first field names its form; the other
fields follow in a fixed order, and a missing part is null. -/
namespace Scriptlet

def Json.line (line : Nat) : String × Json := ("line", .int line)

def Json.ofOption : Option Json → Json
  | none => .null
  | some value => value

def UnaryOperator.name : UnaryOperator → String
  | negate => "Negate"
  | invert => "Not"

def BinaryOperator.name : BinaryOperator → String
  | add => "Add"
  | subtract => "Subtract"
  | multiply => "Multiply"
  | divide => "Divide"
  | modulo => "Modulo"
  | equal => "Equal"
  | notEqual => "NotEqual"
  | less => "Less"
  | lessEqual => "LessEqual"
  | greater => "Greater"
  | greaterEqual => "GreaterEqual"
  | conjunction => "And"
  | disjunction => "Or"

def Value.toJson : Value → Json
  | int number => .object [("Int", .int number.toInt)]
  | double number => .object [("Double", .double number)]
  | string text => .object [("Str", .string text)]
  | bool truth => .object [("Bool", .bool truth)]

/-- A pointer holds the type that it points to. -/
def DeclaredType.toJson (type : DeclaredType) : Json :=
  type.stars.repeat (fun inner => .object [("kind", .string "Pointer"), ("inner", inner)])
    (.object [("kind", .string "Value"), ("name", .string type.name)])

def Parameter.toJson (parameter : Parameter) : Json :=
  .object [("name", .string parameter.name), ("declared_type", parameter.type.toJson)]

mutual

def Expr.toJson : Expr → Json
  | .literal value line =>
    .object [("type", .string "Literal"), ("value", value.toJson), Json.line line]
  | .identifier name line =>
    .object [("type", .string "Identifier"), ("name", .string name), Json.line line]
  | .unary operator operand line =>
    .object [("type", .string "Unary"), ("operator", .string operator.name),
      ("operand", operand.toJson), Json.line line]
  | .binary left operator right line =>
    .object [("type", .string "Binary"), ("left", left.toJson), ("operator", .string operator.name),
      ("right", right.toJson), Json.line line]
  | .member object name line =>
    .object [("type", .string "MemberAccess"), ("object", object.toJson), ("name", .string name),
      Json.line line]
  | .call callee arguments line =>
    .object [("type", .string "Call"), ("callee", callee.toJson),
      ("arguments", .array (Expr.toJsons arguments)), Json.line line]
  | .parenthesized inner line =>
    .object [("type", .string "Parenthesized"), ("expression", inner.toJson), Json.line line]
  | .assign name value line =>
    .object [("type", .string "Assign"), ("name", .string name), ("value", value.toJson),
      Json.line line]

def Expr.toJsons : List Expr → List Json
  | [] => []
  | expression :: rest => expression.toJson :: Expr.toJsons rest

end

mutual

def Stmt.toJson : Stmt → Json
  | .block statements line =>
    .object [("type", .string "Block"), ("statements", .array (Stmt.toJsons statements)),
      Json.line line]
  | .evaluate expression line =>
    .object [("type", .string "Expression"), ("expression", expression.toJson), Json.line line]
  | .declare name type initializer line =>
    .object [("type", .string "VarDecl"), ("name", .string name), ("declared_type", type.toJson),
      ("initializer", Json.ofOption (initializer.map Expr.toJson)), Json.line line]
  | .returns value line =>
    .object [("type", .string "Return"), ("value", Json.ofOption (value.map Expr.toJson)),
      Json.line line]
  | .branch condition whenTrue none line =>
    .object [("type", .string "If"), ("condition", condition.toJson),
      ("then_branch", whenTrue.toJson), ("else_branch", .null), Json.line line]
  | .branch condition whenTrue (some whenFalse) line =>
    .object [("type", .string "If"), ("condition", condition.toJson),
      ("then_branch", whenTrue.toJson), ("else_branch", whenFalse.toJson), Json.line line]
  | .loop condition body stepped line =>
    .object [("type", .string "While"), ("condition", condition.toJson), ("body", body.toJson),
      ("is_for_loop", .bool stepped), Json.line line]
  | .leave line => .object [("type", .string "Break"), Json.line line]
  | .proceed line => .object [("type", .string "Continue"), Json.line line]
  | .function name parameters result body bodyLine line =>
    .object [("type", .string "FuncDecl"), ("name", .string name),
      ("params", .array (parameters.map Parameter.toJson)), ("return_type", result.toJson),
      ("body", .object [("statements", .array (Stmt.toJsons body)), Json.line bodyLine]),
      Json.line line]

def Stmt.toJsons : List Stmt → List Json
  | [] => []
  | statement :: rest => statement.toJson :: Stmt.toJsons rest

end

def Program.toJson (program : Program) : Json :=
  .object [("declarations", .array (Stmt.toJsons program.declarations))]

/-- The indented JSON text of a program. -/
def Program.json (program : Program) : String := program.toJson.pretty 0

end Scriptlet
