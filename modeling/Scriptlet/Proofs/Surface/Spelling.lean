import Scriptlet.Program.Basic
import Scriptlet.Token.Basic

/-! Programs as they are written, and the symbols that spell them out. A surface tree still
has its `for` loops and no lines; which trees belong to the grammar is a matter of how
tightly their parts bind, of what may stand in a branch or a loop, and of whose `else` is
whose. -/
namespace Scriptlet

/-- The kind of the literals that stand for a value. -/
def Value.kind : Value → Kind
  | int _ => .intLiteral
  | double _ => .doubleLiteral
  | string _ => .stringLiteral
  | bool _ => .boolLiteral

def Literal.kind : Literal → Kind
  | identifier _ => .identifier
  | value literal => literal.kind

/-- A token without its place. -/
structure Symbol where
  kind : Kind
  literal : Option Literal
deriving DecidableEq

namespace Symbol

/-- A symbol that stands for nothing but itself. -/
def mark (kind : Kind) : Symbol := ⟨kind, none⟩

def name (text : String) : Symbol := ⟨.identifier, some (.identifier text)⟩

def value (value : Value) : Symbol := ⟨value.kind, some (.value value)⟩

@[simp] theorem kind_mark (kind : Kind) : (mark kind).kind = kind := rfl

@[simp] theorem kind_name (text : String) : (name text).kind = .identifier := rfl

@[simp] theorem kind_value (known : Value) : (value known).kind = known.kind := rfl

end Symbol

def Token.symbol (token : Token) : Symbol := ⟨token.kind, token.literal⟩

/-- A token of the given symbol, as at the start of a source. -/
def Symbol.token (symbol : Symbol) : Token := ⟨symbol.kind, symbol.literal, 0, ⟨0, 0⟩⟩

theorem map_symbol_token (symbols : List Symbol) :
    (symbols.map Symbol.token).map Token.symbol = symbols := by
  rw [List.map_map]
  exact List.map_id _

def UnaryOperator.kind : UnaryOperator → Kind
  | negate => .minus
  | invert => .bang

namespace BinaryOperator

def kind : BinaryOperator → Kind
  | add => .plus
  | subtract => .minus
  | multiply => .star
  | divide => .slash
  | modulo => .percent
  | equal => .equalEqual
  | notEqual => .notEqual
  | less => .less
  | lessEqual => .lessEqual
  | greater => .greater
  | greaterEqual => .greaterEqual
  | conjunction => .andWord
  | disjunction => .orWord

/-- How tightly an operator binds. Assignments bind less tightly than every operator, with
rank 0. -/
def rank : BinaryOperator → Nat
  | disjunction => 1
  | conjunction => 2
  | equal => 3
  | notEqual => 3
  | less => 4
  | lessEqual => 4
  | greater => 4
  | greaterEqual => 4
  | add => 5
  | subtract => 5
  | multiply => 6
  | divide => 6
  | modulo => 6

end BinaryOperator

def DeclaredType.spelling (type : DeclaredType) : List Symbol :=
  .name type.name :: List.replicate type.stars (.mark .star)

def Parameter.spelling (parameter : Parameter) : List Symbol :=
  .name parameter.name :: .mark .colon :: parameter.type.spelling

namespace Surface

/-- Parts with commas between them. -/
def separated : List (List Symbol) → List Symbol
  | [] => []
  | [last] => last
  | first :: second :: rest => first ++ .mark .comma :: separated (second :: rest)

inductive Expr where
  | literal (value : Value)
  | identifier (name : String)
  | parenthesized (inner : Expr)
  | member (object : Expr) (name : String)
  | call (callee : Expr) (arguments : List Expr)
  | unary (operator : UnaryOperator) (operand : Expr)
  | binary (left : Expr) (operator : BinaryOperator) (right : Expr)
  | assign (name : String) (value : Expr)

/-- How tightly the outermost part of an expression binds. -/
def Expr.rank : Expr → Nat
  | literal _ => 9
  | identifier _ => 9
  | parenthesized _ => 9
  | member _ _ => 8
  | call _ _ => 8
  | unary _ _ => 7
  | binary _ operator _ => operator.rank
  | assign _ _ => 0

mutual

def Expr.spelling : Expr → List Symbol
  | .literal value => [.value value]
  | .identifier name => [.name name]
  | .parenthesized inner => .mark .leftParen :: (inner.spelling ++ [.mark .rightParen])
  | .member object name => object.spelling ++ [.mark .dot, .name name]
  | .call callee arguments =>
    callee.spelling ++
      .mark .leftParen :: (separated (Expr.spellings arguments) ++ [.mark .rightParen])
  | .unary operator operand => .mark operator.kind :: operand.spelling
  | .binary left operator right => left.spelling ++ .mark operator.kind :: right.spelling
  | .assign name value => .name name :: .mark .equal :: value.spelling

def Expr.spellings : List Expr → List (List Symbol)
  | [] => []
  | first :: rest => first.spelling :: Expr.spellings rest

end

/-- Expressions of the grammar: operands bind at least as tightly as their place asks for,
binary operators group to the left, and a call has at most sixteen arguments. -/
inductive Expr.WellFormed : Expr → Prop where
  | literal {value : Value} : WellFormed (.literal value)
  | identifier {name : String} : WellFormed (.identifier name)
  | parenthesized {inner : Expr} (nested : WellFormed inner) : WellFormed (.parenthesized inner)
  | member {object : Expr} {name : String} (tight : 8 ≤ object.rank)
      (nested : WellFormed object) : WellFormed (.member object name)
  | call {callee : Expr} {arguments : List Expr} (tight : 8 ≤ callee.rank)
      (nested : WellFormed callee) (few : arguments.length ≤ 16)
      (each : ∀ argument ∈ arguments, WellFormed argument) : WellFormed (.call callee arguments)
  | unary {operator : UnaryOperator} {operand : Expr} (tight : 7 ≤ operand.rank)
      (nested : WellFormed operand) : WellFormed (.unary operator operand)
  | binary {left right : Expr} {operator : BinaryOperator} (tight : operator.rank ≤ left.rank)
      (first : WellFormed left) (tighter : operator.rank < right.rank)
      (second : WellFormed right) : WellFormed (.binary left operator right)
  | assign {name : String} {value : Expr} (nested : WellFormed value) :
      WellFormed (.assign name value)

/-- The symbols of an expression that may be left out. -/
def optionalSpelling : Option Expr → List Symbol
  | none => []
  | some expression => expression.spelling

/-- What stands behind the type of a variable. -/
def valueSpelling : Option Expr → List Symbol
  | none => [.mark .semicolon]
  | some value => .mark .equal :: (value.spelling ++ [.mark .semicolon])

def declarationSpelling (name : String) (type : DeclaredType) (value : Option Expr) :
    List Symbol :=
  .name name :: .mark .colon :: (type.spelling ++ valueSpelling value)

/-- What the head of a `for` loop begins with. -/
inductive Initializer where
  | absent
  | declaration (name : String) (type : DeclaredType) (value : Expr)
  | expression (value : Expr)

def Initializer.spelling : Initializer → List Symbol
  | absent => [.mark .semicolon]
  | declaration name type value => declarationSpelling name type (some value)
  | expression value => value.spelling ++ [.mark .semicolon]

def Initializer.WellFormed : Initializer → Prop
  | absent => True
  | declaration _ _ value => value.WellFormed
  | expression value => value.WellFormed

/-- Statements and declarations. A `branch` has no `else`, a `choice` has one. -/
inductive Stmt where
  | function (name : String) (parameters : List Parameter) (result : DeclaredType)
      (body : List Stmt)
  | declare (name : String) (type : DeclaredType) (value : Option Expr)
  | block (statements : List Stmt)
  | evaluate (expression : Expr)
  | returns (value : Option Expr)
  | branch (condition : Expr) (whenTrue : Stmt)
  | choice (condition : Expr) (whenTrue whenFalse : Stmt)
  | whileLoop (condition : Expr) (body : Stmt)
  | forLoop (initializer : Initializer) (condition increment : Option Expr) (body : Stmt)
  | leave
  | proceed

/-- The symbols of a function up to its opening brace. -/
def headSpelling (name : String) (parameters : List Parameter) (result : DeclaredType) :
    List Symbol :=
  .mark .funcWord :: .name name :: .mark .leftParen ::
    (separated (parameters.map Parameter.spelling) ++
      .mark .rightParen :: .mark .colon :: result.spelling)

/-- A keyword and a condition in parentheses. -/
def conditionSpelling (keyword : Kind) (condition : Expr) : List Symbol :=
  .mark keyword :: .mark .leftParen :: (condition.spelling ++ [.mark .rightParen])

/-- The symbols of a `for` loop up to its body. -/
def clausesSpelling (initializer : Initializer) (condition increment : Option Expr) :
    List Symbol :=
  .mark .forWord :: .mark .leftParen ::
    (initializer.spelling ++ (optionalSpelling condition ++
      .mark .semicolon :: (optionalSpelling increment ++ [.mark .rightParen])))

mutual

def Stmt.spelling : Stmt → List Symbol
  | .function name parameters result body =>
    headSpelling name parameters result ++
      .mark .leftBrace :: (Stmt.spellings body ++ [.mark .rightBrace])
  | .declare name type value => declarationSpelling name type value
  | .block statements => .mark .leftBrace :: (Stmt.spellings statements ++ [.mark .rightBrace])
  | .evaluate expression => expression.spelling ++ [.mark .semicolon]
  | .returns value => .mark .returnWord :: (optionalSpelling value ++ [.mark .semicolon])
  | .branch condition whenTrue => conditionSpelling .ifWord condition ++ whenTrue.spelling
  | .choice condition whenTrue whenFalse =>
    conditionSpelling .ifWord condition ++
      (whenTrue.spelling ++ .mark .elseWord :: whenFalse.spelling)
  | .whileLoop condition body => conditionSpelling .whileWord condition ++ body.spelling
  | .forLoop initializer condition increment body =>
    clausesSpelling initializer condition increment ++ body.spelling
  | .leave => [.mark .breakWord, .mark .semicolon]
  | .proceed => [.mark .continueWord, .mark .semicolon]

/-- Statements one after the other. -/
def Stmt.spellings : List Stmt → List Symbol
  | [] => []
  | first :: rest => first.spelling ++ Stmt.spellings rest

end

/-- Functions and variables are declared where a block or a source holds them. -/
def Stmt.isDeclaration : Stmt → Bool
  | .function _ _ _ _ => true
  | .declare _ _ _ => true
  | _ => false

/-- Whether an `else` behind a statement would belong to an `if` inside of it. -/
def Stmt.endsOpen : Stmt → Bool
  | .branch _ _ => true
  | .choice _ _ whenFalse => whenFalse.endsOpen
  | .whileLoop _ body => body.endsOpen
  | .forLoop _ _ _ body => body.endsOpen
  | _ => false

/-- Statements of the grammar, in a loop or outside of one. Branches and loop bodies are no
declarations, an `else` belongs to the nearest `if`, and a function body stands in no loop. -/
inductive Stmt.WellFormed : Bool → Stmt → Prop where
  | function {inLoop : Bool} {name : String} {parameters : List Parameter}
      {result : DeclaredType} {body : List Stmt} (few : parameters.length ≤ 16)
      (each : ∀ statement ∈ body, WellFormed false statement) :
      WellFormed inLoop (.function name parameters result body)
  | declare {inLoop : Bool} {name : String} {type : DeclaredType} {value : Option Expr}
      (initial : ∀ expression ∈ value, expression.WellFormed) :
      WellFormed inLoop (.declare name type value)
  | block {inLoop : Bool} {statements : List Stmt}
      (each : ∀ statement ∈ statements, WellFormed inLoop statement) :
      WellFormed inLoop (.block statements)
  | evaluate {inLoop : Bool} {expression : Expr} (nested : expression.WellFormed) :
      WellFormed inLoop (.evaluate expression)
  | returns {inLoop : Bool} {value : Option Expr}
      (result : ∀ expression ∈ value, expression.WellFormed) : WellFormed inLoop (.returns value)
  | branch {inLoop : Bool} {condition : Expr} {whenTrue : Stmt} (test : condition.WellFormed)
      (noDeclaration : whenTrue.isDeclaration = false) (first : WellFormed inLoop whenTrue) :
      WellFormed inLoop (.branch condition whenTrue)
  | choice {inLoop : Bool} {condition : Expr} {whenTrue whenFalse : Stmt}
      (test : condition.WellFormed) (noDeclaration : whenTrue.isDeclaration = false)
      (closed : whenTrue.endsOpen = false) (first : WellFormed inLoop whenTrue)
      (noOther : whenFalse.isDeclaration = false) (second : WellFormed inLoop whenFalse) :
      WellFormed inLoop (.choice condition whenTrue whenFalse)
  | whileLoop {inLoop : Bool} {condition : Expr} {body : Stmt} (test : condition.WellFormed)
      (noDeclaration : body.isDeclaration = false) (nested : WellFormed true body) :
      WellFormed inLoop (.whileLoop condition body)
  | forLoop {inLoop : Bool} {initializer : Initializer} {condition increment : Option Expr}
      {body : Stmt} (start : initializer.WellFormed)
      (test : ∀ expression ∈ condition, expression.WellFormed)
      (step : ∀ expression ∈ increment, expression.WellFormed)
      (noDeclaration : body.isDeclaration = false) (nested : WellFormed true body) :
      WellFormed inLoop (.forLoop initializer condition increment body)
  | leave : WellFormed true .leave
  | proceed : WellFormed true .proceed

/-- A program of the grammar: declarations and statements outside of any loop. -/
@[ext] structure Program where
  statements : List Stmt
  wellFormed : ∀ statement ∈ statements, statement.WellFormed false

def Program.spelling (program : Program) : List Symbol := Stmt.spellings program.statements

end Surface

end Scriptlet
