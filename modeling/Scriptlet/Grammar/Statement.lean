import Scriptlet.Grammar.Expression

/-! Statements and declarations. Branches and loop bodies are statements; blocks and
function bodies hold declarations. A `for` loop is read as a `while` loop in a block. -/
namespace Scriptlet.Grammar

open Scriptlet.Grammar.Parser

/-- A type name and its stars. -/
def stars : Nat → Parser Nat
  | 0 => return 0
  | count + 1 => do
    match ← take? .star with
    | some _ => return (← stars count) + 1
    | none => return 0

def declaredType : Parser DeclaredType := do
  let name ← name .type
  return ⟨name, ← stars (← remaining)⟩

/-- One parameter or more, at most as many as are still allowed. -/
def parameterList : Nat → Parser (List Parameter)
  | 0 => fail .tooManyParameters
  | allowed + 1 => do
    let name ← name .parameter
    expect .colon .afterParameterName
    let type ← declaredType
    match ← take? .comma with
    | some _ => return ⟨name, type⟩ :: (← parameterList allowed)
    | none => return [⟨name, type⟩]

def parameters : Parser (List Parameter) := do
  let list ← if ← check .rightParen then pure [] else parameterList maxArguments
  expect .rightParen .afterParameters
  return list

/-- A variable: `name: type [= value];`, where the head of a `for` loop needs the value. -/
def variableDeclaration (valueNeeded : Bool) : Parser Stmt := do
  let line := (← peek).line
  let name ← name .localVariable
  expect .colon .afterVariableName
  let type ← declaredType
  let initializer ←
    match ← take? .equal with
    | some _ => do pure (some (← expression))
    | none => if valueNeeded then fail .expectedInitializer else pure none
  expect .semicolon .afterVariableDeclaration
  return .declare name type initializer line

def expressionStatement : Parser Stmt := do
  let expression ← expression
  expect .semicolon .afterExpression
  return .evaluate expression expression.line

/-- An expression unless the given token stands in its place. -/
def expressionUnless (kind : Kind) : Parser (Option Expr) := do
  if ← check kind then return none else return some (← expression)

/-- The rest of `break` and `continue` behind their keyword, which has to stand in a loop. -/
def loopControl (keyword : Token) (inLoop : Bool) : Parser Unit := do
  if inLoop then expect .semicolon (.afterKeyword keyword.kind)
  else throw ⟨.outsideLoop keyword.kind, keyword⟩

def returnStatement (line : Nat) : Parser Stmt := do
  let value ← expressionUnless .semicolon
  expect .semicolon .afterReturnValue
  return .returns value line

/-- Declarations up to a closing brace or the end of the source, at most `count`. -/
def blockItems (item : Parser Stmt) : Nat → Parser (List Stmt)
  | 0 => return []
  | count + 1 => do
    let kind := (← peek).kind
    if kind = .rightBrace ∨ kind = .endOfFile then return []
    else
      let first ← item
      return first :: (← blockItems item count)

/-- The declarations of a block behind its opening brace. -/
def blockBody (item : Parser Stmt) : Parser (List Stmt) := do
  let items ← blockItems item (← remaining)
  expect .rightBrace .afterBlock
  return items

/-- A condition in parentheses. -/
def condition (keyword : Kind) (place : Place) : Parser Expr := do
  expect .leftParen (.afterKeyword keyword)
  let test ← expression
  expect .rightParen place
  return test

def ifStatement (line : Nat) (branch : Parser Stmt) : Parser Stmt := do
  let test ← condition .ifWord .afterIfCondition
  let whenTrue ← branch
  let whenFalse ←
    match ← take? .elseWord with
    | some _ => do pure (some (← branch))
    | none => pure none
  return .branch test whenTrue whenFalse line

def whileStatement (line : Nat) (body : Parser Stmt) : Parser Stmt := do
  let test ← condition .whileWord .afterWhileCondition
  return .loop test (← body) false line

/-- The parts of a `for` loop. -/
structure ForLoop where
  initializer : Option Stmt
  condition : Expr
  increment : Option Expr
  body : Stmt

/-- The loop `for (initializer; condition; increment) body` as
`{ initializer; while (condition) { body; increment; } }`, without the braces that no
initializer or no increment needs. -/
def ForLoop.toStmt (parts : ForLoop) (line : Nat) : Stmt :=
  let body :=
    match parts.increment with
    | some increment => .block [parts.body, .evaluate increment increment.line] line
    | none => parts.body
  let loop := .loop parts.condition body parts.increment.isSome line
  match parts.initializer with
  | some initializer => .block [initializer, loop] line
  | none => loop

def forInitializer : Parser (Option Stmt) := do
  match ← take? .semicolon with
  | some _ => return none
  | none =>
    if ← atDeclaration then return some (← variableDeclaration true)
    else return some (← expressionStatement)

/-- The condition of a `for` loop; a missing one is true. -/
def forCondition : Parser Expr := do
  let line := (← peek).line
  let test ← expressionUnless .semicolon
  expect .semicolon .afterForCondition
  return test.getD (.literal (.bool true) line)

def forStatement (line : Nat) (body : Parser Stmt) : Parser Stmt := do
  expect .leftParen (.afterKeyword .forWord)
  let initializer ← forInitializer
  let condition ← forCondition
  let increment ← expressionUnless .rightParen
  expect .rightParen .afterForClauses
  let body ← body
  return ForLoop.toStmt ⟨initializer, condition, increment, body⟩ line

/-- A statement over the parsers of nested declarations and statements, which are told
whether they stand in a loop. -/
def statementOver (declaration statement : Bool → Parser Stmt) (inLoop : Bool) : Parser Stmt := do
  let token ← peek
  match token.kind with
  | .forWord =>
    advance
    forStatement token.line (statement true)
  | .ifWord =>
    advance
    ifStatement token.line (statement inLoop)
  | .returnWord =>
    advance
    returnStatement token.line
  | .whileWord =>
    advance
    whileStatement token.line (statement true)
  | .leftBrace =>
    advance
    return .block (← blockBody (declaration inLoop)) token.line
  | .breakWord =>
    advance
    loopControl token inLoop
    return .leave token.line
  | .continueWord =>
    advance
    loopControl token inLoop
    return .proceed token.line
  | _ => expressionStatement

/-- A function behind its keyword. Its body stands in no loop, wherever the function does. -/
def functionDeclaration (line : Nat) (item : Parser Stmt) : Parser Stmt := do
  let name ← name .function
  expect .leftParen .afterFunctionName
  let parameters ← parameters
  match ← take? .colon with
  | none => fail (.missingReturnType name)
  | some _ =>
    let result ← declaredType
    let bodyLine := (← peek).line
    expect .leftBrace .beforeFunctionBody
    let body ← blockBody item
    return .function name parameters result body bodyLine line

/-- A function, a variable or a statement. -/
def declarationOver (declaration statement : Bool → Parser Stmt) (inLoop : Bool) :
    Parser Stmt := do
  let token ← peek
  match token.kind with
  | .funcWord =>
    advance
    functionDeclaration token.line (declaration false)
  | .includeWord => fail .nestedInclude
  | _ =>
    if ← atDeclaration then variableDeclaration false
    else statementOver declaration statement inLoop

mutual

/-- Declarations nested at most `depth` deep. -/
def declarationUpTo : Nat → Bool → Parser Stmt
  | 0 => fun _ => expressionStatement
  | depth + 1 => declarationOver (declarationUpTo depth) (statementUpTo depth)

/-- Statements nested at most `depth` deep. -/
def statementUpTo : Nat → Bool → Parser Stmt
  | 0 => fun _ => expressionStatement
  | depth + 1 => statementOver (declarationUpTo depth) (statementUpTo depth)

end

/-- A declaration outside of any loop. Every nested one follows a token of the outer one, so
the number of tokens ahead is depth enough. -/
def declaration : Parser Stmt := do declarationUpTo (← remaining) false

end Scriptlet.Grammar
