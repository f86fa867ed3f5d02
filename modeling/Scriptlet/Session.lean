import Scriptlet.Run.Evaluate
import Scriptlet.Source.Include

/-! Sessions: programs are loaded into one global scope, and functions of that scope are
run. Loading and running may fail at any point; the session keeps what was done before. -/
namespace Scriptlet

open Scriptlet.Run

/-- The global scope and all that has been printed. -/
structure Session where
  globals : Scope
  console : Console

/-- Why a file could not be loaded and run. -/
inductive SessionError where
  | compile (error : CompileError)
  | interrupted (interruption : Interruption)

namespace Session

def empty : Session := ⟨Scope.empty, Console.empty⟩

def output (session : Session) : String := session.console.output

/-- Define the functions of a program. Those in front of the first declaration that cannot
be loaded stay defined. -/
def loadDeclarations : List Stmt → Scope → Except LoadError Unit × Scope
  | [], scope => (.ok (), scope)
  | .function name parameters result body bodyLine line :: rest, scope =>
    match scope.defineFunction name ⟨name, parameters, result, body, bodyLine, line⟩ with
    | .ok extended => loadDeclarations rest extended
    | .error fault => (.error ⟨.scope fault, line⟩, scope)
  | other :: _, scope => (.error ⟨.notAFunction, other.line⟩, scope)

def load (program : Program) (session : Session) : Except LoadError Unit × Session :=
  let (result, globals) := loadDeclarations program.declarations session.globals
  (result, { session with globals })

/-- Flush the sink after a call has ended; its refusal goes before the result of the call. -/
def flushed (sink : Sink) (result : Except Interruption (Option Value)) :
    Except Interruption (Option Value) :=
  match result, sink.flushRefusal with
  | .error .unfinished, _ => .error .unfinished
  | _, some reason => .error (.failed (.unplaced (.writeRefused reason)))
  | _, none => result

/-- Call a function of the session without arguments, in at most `steps` steps. -/
def run (sink : Sink) (steps : Nat) (entry : String) (session : Session) :
    Except Interruption (Option Value) × Session :=
  match session.globals.function? entry with
  | none => (.error (.failed (.unplaced (.scope (.undefinedFunction entry)))), session)
  | some function =>
    match callFunction (execute sink steps) function [] function.line
        ⟨Chain.root session.globals, session.console⟩ with
    | .ok value after => (flushed sink (.ok value), ⟨after.chain.current, after.console⟩)
    | .error reason after => (flushed sink (.error reason), ⟨after.chain.current, after.console⟩)

/-- Load a file with all it includes. -/
def loadFile (files : Source.FileSystem) (path : String) (session : Session) :
    Except CompileError (List Warning) × Session :=
  match Source.load files path with
  | .error error => (.error error, session)
  | .ok loaded =>
    let (result, after) := session.load loaded.program
    match result with
    | .ok () => (.ok loaded.warnings, after)
    | .error error => (.error (.load error), after)

/-- Load a file and call a function. -/
def runFile (files : Source.FileSystem) (sink : Sink) (steps : Nat) (path entry : String)
    (session : Session) : Except SessionError (Option Value) × Session :=
  match session.loadFile files path with
  | (.error error, after) => (.error (.compile error), after)
  | (.ok _, after) =>
    let (result, final) := after.run sink steps entry
    (result.mapError .interrupted, final)

end Session

end Scriptlet
