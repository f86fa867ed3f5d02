import Scriptlet.Grammar.Stream
import Scriptlet.Program.Basic

/-! Expressions, from the loosest to the tightest: assignment, the binary levels, unary
operators, calls and member access, and what stands by itself. Each part is written over
the parser of the expressions nested in it; the number of tokens ahead bounds how deep they
can nest. -/
namespace Scriptlet.Grammar

open Scriptlet.Grammar.Parser

/-- Binary operators by level, the loosest first. Each level groups to the left. -/
def binaryLevels : List (List (Kind × BinaryOperator)) :=
  [[(.orWord, .disjunction)],
    [(.andWord, .conjunction)],
    [(.equalEqual, .equal), (.notEqual, .notEqual)],
    [(.greater, .greater), (.greaterEqual, .greaterEqual), (.less, .less), (.lessEqual, .lessEqual)],
    [(.plus, .add), (.minus, .subtract)],
    [(.star, .multiply), (.slash, .divide), (.percent, .modulo)]]

def unaryOperator? : Kind → Option UnaryOperator
  | .bang => some .invert
  | .minus => some .negate
  | _ => none

/-- The value of a literal; kind and payload have to fit together. -/
def literal? (token : Token) : Option Value :=
  match token.kind, token.literal with
  | .intLiteral, some (.value (.int number)) => some (.int number)
  | .doubleLiteral, some (.value (.double number)) => some (.double number)
  | .stringLiteral, some (.value (.string text)) => some (.string text)
  | .boolLiteral, some (.value (.bool truth)) => some (.bool truth)
  | _, _ => none

/-- Literals, names and parenthesised expressions. -/
def primary (nested : Parser Expr) : Parser Expr := do
  let token ← peek
  match literal? token, token.kind, token.literal with
  | some value, _, _ =>
    advance
    return .literal value token.line
  | none, .identifier, some (.identifier name) =>
    advance
    return .identifier name token.line
  | none, .leftParen, _ =>
    advance
    let inner ← nested
    expect .rightParen .afterExpression
    return .parenthesized inner token.line
  | none, _, _ => fail .expectedExpression

/-- One argument or more, at most as many as are still allowed. -/
def argumentList (nested : Parser Expr) : Nat → Parser (List Expr)
  | 0 => fail .tooManyArguments
  | allowed + 1 => do
    let first ← nested
    match ← take? .comma with
    | some _ => return first :: (← argumentList nested allowed)
    | none => return [first]

/-- The arguments of a call behind its opening parenthesis. -/
def callArguments (nested : Parser Expr) : Parser (List Expr) := do
  let arguments ← if ← check .rightParen then pure [] else argumentList nested maxArguments
  expect .rightParen .afterArguments
  return arguments

/-- Calls and member accesses behind an expression, at most `count` of them. -/
def suffixes (nested : Parser Expr) : Nat → Expr → Parser Expr
  | 0, expression => return expression
  | count + 1, expression => do
    match (← peek).kind with
    | .leftParen =>
      advance
      let arguments ← callArguments nested
      suffixes nested count (.call expression arguments expression.line)
    | .dot =>
      advance
      let member ← name .member
      suffixes nested count (.member expression member expression.line)
    | _ => return expression

def suffixed (nested : Parser Expr) : Parser Expr := do
  let first ← primary nested
  suffixes nested (← remaining) first

/-- At most `count` unary operators in front of an operand. -/
def unaryUpTo (nested : Parser Expr) : Nat → Parser Expr
  | 0 => suffixed nested
  | count + 1 => do
    let token ← peek
    match unaryOperator? token.kind with
    | some operator =>
      advance
      let operand ← unaryUpTo nested count
      return .unary operator operand token.line
    | none => suffixed nested

def unary (nested : Parser Expr) : Parser Expr := do unaryUpTo nested (← remaining)

/-- Read one of the operators of a level if it is next. -/
def operator? (operators : List (Kind × BinaryOperator)) : Parser (Option BinaryOperator) := do
  match operators.lookup (← peek).kind with
  | some operator =>
    advance
    return some operator
  | none => return none

/-- Operators of one level and their right operands, at most `count` of them. -/
def binaryTail (operators : List (Kind × BinaryOperator)) (operand : Parser Expr) :
    Nat → Expr → Parser Expr
  | 0, left => return left
  | count + 1, left => do
    match ← operator? operators with
    | some operator =>
      let right ← operand
      binaryTail operators operand count (.binary left operator right left.line)
    | none => return left

def binaryLevel (operators : List (Kind × BinaryOperator)) (operand : Parser Expr) :
    Parser Expr := do
  let first ← operand
  binaryTail operators operand (← remaining) first

def binary (nested : Parser Expr) : Parser Expr := binaryLevels.foldr binaryLevel (unary nested)

/-- An assignment groups to the right. Its target has to be a name, which is looked at only
after its value has been read. -/
def assignment (nested : Parser Expr) : Parser Expr := do
  let target ← binary nested
  match ← take? .equal with
  | none => return target
  | some mark =>
    let value ← nested
    match target with
    | .identifier name line => return .assign name value line
    | _ => throw ⟨.invalidTarget, mark⟩

/-- Expressions nested at most `depth` deep. -/
def expressionUpTo : Nat → Parser Expr
  | 0 => fail .expectedExpression
  | depth + 1 => assignment (expressionUpTo depth)

/-- An expression. Every nested expression follows a token of the outer one, so the number
of tokens ahead is depth enough. -/
def expression : Parser Expr := do expressionUpTo (← remaining)

end Scriptlet.Grammar
