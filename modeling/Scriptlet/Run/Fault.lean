import Scriptlet.Scope

/-! Run time errors: a cause and, once it is known, the line it belongs to. -/
namespace Scriptlet

/-- A cause with the line at which it shows. -/
structure Located (Cause : Type) where
  cause : Cause
  line : Option Nat
deriving DecidableEq, Repr

namespace Located

def unplaced {Cause : Type} (cause : Cause) : Located Cause := ⟨cause, none⟩

def atLine {Cause : Type} (cause : Cause) (line : Nat) : Located Cause := ⟨cause, some line⟩

/-- Fill in the line if there is none yet; a line given further inside stays. -/
def withLine {Cause : Type} (error : Located Cause) (line : Nat) : Located Cause :=
  { error with line := some (error.line.getD line) }

/-- The text of a run time error, given that of its cause. -/
def text {Cause : Type} (message : Cause → String) (error : Located Cause) : String :=
  match error.line with
  | some line => "runtime error at line " ++ Nat.repr line ++ ": " ++ message error.cause
  | none => "runtime error: " ++ message error.cause

end Located

namespace Run

inductive Cause where
  | operator (fault : OperatorFault)
  | scope (fault : ScopeFault)
  | arity (function : String) (expected given : Nat)
  | noValue (function : String)
  | unnamedCallee
  | memberAccess (name : String)
  | nestedFunction (name : String)
  | escapedLoopControl (function : String)
  | writeRefused (reason : String)
deriving DecidableEq, Repr

def Cause.message : Cause → String
  | operator fault => fault.message
  | scope fault => fault.message
  | arity function expected given =>
    "function '" ++ function ++ "' expects " ++ Nat.repr expected ++ " arguments but got " ++
      Nat.repr given
  | noValue function => "function '" ++ function ++ "' does not return a value"
  | unnamedCallee => "only named functions can be called"
  | memberAccess name => "member access ('." ++ name ++ "') is not supported"
  | nestedFunction name =>
    "invalid statement: function '" ++ name ++ "' can only be declared at the top level"
  | escapedLoopControl function => "loop control escaped function '" ++ function ++ "'"
  | writeRefused reason => "failed to write output: " ++ reason

abbrev Error := Located Cause

def Error.message (error : Error) : String := error.text Cause.message

end Run

end Scriptlet
