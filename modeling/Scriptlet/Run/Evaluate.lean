import Scriptlet.Run.Machine

/-! Evaluating expressions and executing statements. Each rule is written over the
evaluation of the parts; the number of steps that a run is allowed bounds how deep
evaluations nest and how often a loop goes round. Names are looked up in the scopes of the
callers, so a function sees the variables that are visible where it is called. -/
namespace Scriptlet.Run

open Exec

/-- The name under which a call finds its function. -/
def calleeName? : Expr → Option String
  | .identifier name _ => some name
  | _ => none

/-- Functions that every program can call. They go before functions of the program. -/
inductive Builtin where
  | print
deriving DecidableEq, Repr

def Builtin.name : Builtin → String
  | print => "print"

def Builtin.ofName? : String → Option Builtin
  | "print" => some .print
  | _ => none

section

variable (sink : Sink) (evaluate : Expr → Exec (Option Value)) (execute : Stmt → Exec Signal)

/-- The value of an expression where one is needed. Only a call may have none. -/
def valueOf (expression : Expr) : Exec Value := do
  match ← evaluate expression with
  | some value => return value
  | none =>
    match expression with
    | .call (.identifier name _) _ line => failAt line (.noValue name)
    | other => failAt other.line .unnamedCallee

/-- Statements one after the other, up to the first that does not end normally. -/
def sequence : List Stmt → Exec Signal
  | [] => return .normal
  | statement :: rest => do
    match ← execute statement with
    | .normal => sequence rest
    | signal => return signal

/-- Bind parameters to arguments in the current scope. -/
def bindParameters (line : Nat) : List (Parameter × Value) → Exec Unit
  | [] => return ()
  | (parameter, value) :: rest => do
    locate line (define parameter.name (some value))
    bindParameters line rest

/-- Call a function from the given line. Its parameters have a scope of their own around
that of its body. -/
def callFunction (function : Function) (values : List Value) (line : Nat) :
    Exec (Option Value) := do
  if values.length ≠ function.parameters.length then
    failAt line (.arity function.name function.parameters.length values.length)
  else
    let signal ← inScope do
      bindParameters function.line (function.parameters.zip values)
      inScope (sequence execute function.body)
    match signal with
    | .normal => return none
    | .returned value => return value
    | .left => failAt function.line (.escapedLoopControl function.name)
    | .proceeded => failAt function.line (.escapedLoopControl function.name)

/-- Print a value; a call without a value prints nothing. -/
def printResult : Option Value → Exec Unit
  | some value => emit sink value.text
  | none => return ()

/-- Print each argument as soon as it is evaluated, with nothing between them. -/
def printAll : List Expr → Exec Unit
  | [] => return ()
  | argument :: rest => do
    printResult sink (← evaluate argument)
    printAll rest

/-- A call. The number of arguments is checked before any of them is evaluated. -/
def call (callee : Expr) (arguments : List Expr) (line : Nat) : Exec (Option Value) := do
  match calleeName? callee with
  | none => failAt line .unnamedCallee
  | some name =>
    match Builtin.ofName? name with
    | some .print =>
      locate line (printAll sink evaluate arguments)
      return none
    | none =>
      let function ← locate line (lookupFunction name)
      if arguments.length ≠ function.parameters.length then
        failAt line (.arity name function.parameters.length arguments.length)
      else
        let values ← arguments.mapM (valueOf evaluate)
        callFunction execute function values line

/-- The rules of expressions. Both operands of a binary operator are always evaluated. -/
def evaluateOver : Expr → Exec (Option Value)
  | .literal value _ => return some value
  | .parenthesized inner _ => return some (← valueOf evaluate inner)
  | .identifier name line => return some (← locate line (lookup name))
  | .unary operator operand line => do
    let value ← valueOf evaluate operand
    return some (← locate line (Exec.operator (operator.apply value)))
  | .binary left operator right line => do
    let first ← valueOf evaluate left
    let second ← valueOf evaluate right
    return some (← locate line (Exec.operator (operator.apply first second)))
  | .assign name value line => do
    let value ← valueOf evaluate value
    locate line (assign name value)
    return some value
  | .member _ name line => failAt line (.memberAccess name)
  | .call callee arguments line => call sink evaluate execute callee arguments line

/-- Go round while the test holds, at most `count` times. The step is taken when the body
ends early to go on with the next round. -/
def repeatWhile (test : Exec Bool) (body : Exec Signal) (step : Exec Unit) : Nat → Exec Signal
  | 0 => unfinished
  | count + 1 => do
    if ← test then
      match ← body with
      | .normal => repeatWhile test body step count
      | .left => return .normal
      | .proceeded =>
        step
        repeatWhile test body step count
      | .returned value => return .returned value
    else return .normal

/-- The increment that a stepped loop keeps at the end of its body. -/
def increment? (stepped : Bool) (body : Stmt) : Option Stmt :=
  match stepped, body with
  | true, .block statements _ => statements.getLast?
  | _, _ => none

/-- Execute the increment, if there is one, whatever way it ends. -/
def takeStep (increment : Option Stmt) : Exec Unit := do
  match increment with
  | some statement =>
    let _ ← execute statement
    return ()
  | none => return ()

/-- The rules of statements, with a bound on the rounds of a loop. -/
def executeOver (rounds : Nat) : Stmt → Exec Signal
  | .block statements _ => inScope (sequence execute statements)
  | .evaluate expression _ => do
    let _ ← evaluate expression
    return .normal
  | .declare name _ initializer line => do
    let value ← initializer.mapM (valueOf evaluate)
    locate line (define name value)
    return .normal
  | .returns value _ => return .returned (← value.mapM (valueOf evaluate))
  | .branch condition whenTrue whenFalse _ => do
    if (← valueOf evaluate condition).isTruthy then execute whenTrue
    else
      match whenFalse with
      | some statement => execute statement
      | none => return .normal
  | .loop condition body stepped _ =>
    repeatWhile (return (← valueOf evaluate condition).isTruthy) (execute body)
      (takeStep execute (increment? stepped body)) rounds
  | .leave _ => return .left
  | .proceed _ => return .proceeded
  | .function name _ _ _ _ line => failAt line (.nestedFunction name)

end

mutual

/-- Evaluate an expression in at most `steps` steps. -/
def evaluate (sink : Sink) : Nat → Expr → Exec (Option Value)
  | 0 => fun _ => unfinished
  | steps + 1 => evaluateOver sink (evaluate sink steps) (execute sink steps)

/-- Execute a statement in at most `steps` steps. -/
def execute (sink : Sink) : Nat → Stmt → Exec Signal
  | 0 => fun _ => unfinished
  | steps + 1 => executeOver (evaluate sink steps) (execute sink steps) steps

end

end Scriptlet.Run
