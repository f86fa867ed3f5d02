import Scriptlet.Run.Fault

/-! The state of a run and the actions on it. Actions keep the state they have reached when
they fail, and every scope that an action enters is left again, also on failure. -/
namespace Scriptlet.Run

/-- What takes up the output. It may refuse a text, giving a reason; the number counts the
texts it was offered before. -/
structure Sink where
  refusal : Nat → String → Option String
  flushRefusal : Option String

/-- A sink that takes everything. -/
def Sink.accepting : Sink := ⟨fun _ _ => none, none⟩

/-- The texts that the sink has taken, and how often it was offered one. -/
structure Console where
  texts : Array String
  offers : Nat
deriving DecidableEq, Repr

namespace Console

def empty : Console := ⟨#[], 0⟩

/-- All that has been printed. -/
def output (console : Console) : String := String.join console.texts.toList

end Console

structure Machine where
  chain : Chain
  console : Console

/-- Why an action gave no result: a run time error, or more steps than it was allowed. -/
inductive Interruption where
  | failed (error : Error)
  | unfinished
deriving DecidableEq, Repr

def Interruption.withLine (line : Nat) : Interruption → Interruption
  | failed error => failed (error.withLine line)
  | unfinished => unfinished

abbrev Exec := EStateM Interruption Machine

/-- How a statement ended. All but the first unwind to the nearest loop or call. -/
inductive Signal where
  | normal
  | returned (value : Option Value)
  | left
  | proceeded
deriving DecidableEq

namespace Exec

variable {α : Type}

def unfinished : Exec α := throw .unfinished

/-- Fail without a line. -/
def raise (cause : Cause) : Exec α := throw (.failed (.unplaced cause))

def failAt (line : Nat) (cause : Cause) : Exec α := throw (.failed (.atLine cause line))

/-- Errors of the action that have no line get this one. -/
def locate (line : Nat) (action : Exec α) : Exec α :=
  EStateM.adaptExcept (Interruption.withLine line) action

def operator (result : Except OperatorFault α) : Exec α :=
  match result with
  | .ok value => pure value
  | .error fault => raise (.operator fault)

def scope (result : Except ScopeFault α) : Exec α :=
  match result with
  | .ok value => pure value
  | .error fault => raise (.scope fault)

/-- Act in a fresh scope inside the current one. -/
def inScope (action : Exec α) : Exec α := fun machine =>
  match action { machine with chain := machine.chain.push } with
  | .ok value after => .ok value { after with chain := after.chain.pop }
  | .error reason after => .error reason { after with chain := after.chain.pop }

def lookup (name : String) : Exec Value := do scope ((← get).chain.lookup name)

def lookupFunction (name : String) : Exec Function := do scope ((← get).chain.lookupFunction name)

def define (name : String) (value : Option Value) : Exec Unit := do
  let chain ← scope ((← get).chain.defineVariable name value)
  modify fun machine => { machine with chain }

def assign (name : String) (value : Value) : Exec Unit := do
  let chain ← scope ((← get).chain.assign name value)
  modify fun machine => { machine with chain }

/-- Offer a text to the sink. -/
def offer (sink : Sink) (text : String) : Exec Unit := do
  let console := (← get).console
  match sink.refusal console.offers text with
  | none =>
    modify fun machine =>
      { machine with console := ⟨console.texts.push text, console.offers + 1⟩ }
  | some reason =>
    modify fun machine => { machine with console := ⟨console.texts, console.offers + 1⟩ }
    raise (.writeRefused reason)

/-- Write a text. An empty one is not even offered to the sink. -/
def emit (sink : Sink) (text : String) : Exec Unit :=
  if text.isEmpty then return () else offer sink text

end Exec

end Scriptlet.Run
