import Scriptlet.Program.Basic

/-! Scopes and chains of scopes. Variables and functions live in separate namespaces, and a
variable may be declared without a value. A name is looked up from the innermost scope
outward. -/
namespace Scriptlet

inductive ScopeFault where
  | variableDefined (name : String)
  | functionDefined (name : String)
  | undefinedVariable (name : String)
  | unassignedVariable (name : String)
  | undefinedFunction (name : String)
deriving DecidableEq, Repr

def ScopeFault.message : ScopeFault → String
  | variableDefined name => "variable '" ++ name ++ "' is already defined in this scope"
  | functionDefined name => "function '" ++ name ++ "' is already defined in this scope"
  | undefinedVariable name => "undefined variable '" ++ name ++ "'"
  | unassignedVariable name => "variable '" ++ name ++ "' is used before being assigned"
  | undefinedFunction name => "undefined function '" ++ name ++ "'"

structure Scope where
  slots : List (String × Option Value)
  functions : List (String × Function)

namespace Scope

def empty : Scope := ⟨[], []⟩

/-- The slot of a variable: nothing if it is not defined here. -/
def slot? (scope : Scope) (name : String) : Option (Option Value) := scope.slots.lookup name

def function? (scope : Scope) (name : String) : Option Function := scope.functions.lookup name

/-- Define a variable, with or without a value. -/
def defineVariable (scope : Scope) (name : String) (value : Option Value) :
    Except ScopeFault Scope :=
  match scope.slot? name with
  | some _ => .error (.variableDefined name)
  | none => .ok { scope with slots := (name, value) :: scope.slots }

def defineFunction (scope : Scope) (name : String) (function : Function) :
    Except ScopeFault Scope :=
  match scope.function? name with
  | some _ => .error (.functionDefined name)
  | none => .ok { scope with functions := (name, function) :: scope.functions }

/-- Give a variable of this scope a value, if it is defined here. -/
def assign? (scope : Scope) (name : String) (value : Value) : Option Scope :=
  match scope.slot? name with
  | none => none
  | some _ =>
    some { scope with
      slots := scope.slots.map fun entry =>
        if entry.1 = name then (name, some value) else entry }

end Scope

/-- The scope in which definitions are made and the scopes around it, from the inside
outward. -/
structure Chain where
  current : Scope
  outer : List Scope

namespace Chain

def root (globals : Scope) : Chain := ⟨globals, []⟩

def scopes (chain : Chain) : List Scope := chain.current :: chain.outer

def push (chain : Chain) : Chain := ⟨Scope.empty, chain.scopes⟩

/-- Drop the current scope; the outermost one stays. -/
def pop (chain : Chain) : Chain :=
  match chain.outer with
  | [] => chain
  | current :: outer => ⟨current, outer⟩

def defineVariable (chain : Chain) (name : String) (value : Option Value) :
    Except ScopeFault Chain :=
  (chain.current.defineVariable name value).map fun current => { chain with current }

def defineFunction (chain : Chain) (name : String) (function : Function) :
    Except ScopeFault Chain :=
  (chain.current.defineFunction name function).map fun current => { chain with current }

/-- The value of the innermost variable of this name. One without a value hides those
further out. -/
def lookup (chain : Chain) (name : String) : Except ScopeFault Value :=
  match chain.scopes.findSome? (·.slot? name) with
  | none => .error (.undefinedVariable name)
  | some none => .error (.unassignedVariable name)
  | some (some value) => .ok value

def lookupFunction (chain : Chain) (name : String) : Except ScopeFault Function :=
  match chain.scopes.findSome? (·.function? name) with
  | none => .error (.undefinedFunction name)
  | some function => .ok function

/-- Assign in the first of these scopes that defines the variable. -/
def assignIn? (name : String) (value : Value) : List Scope → Option (List Scope)
  | [] => none
  | scope :: rest =>
    match scope.assign? name value with
    | some changed => some (changed :: rest)
    | none => (assignIn? name value rest).map (scope :: ·)

/-- Give the innermost variable of this name a value. -/
def assign (chain : Chain) (name : String) (value : Value) : Except ScopeFault Chain :=
  match chain.current.assign? name value with
  | some current => .ok { chain with current }
  | none =>
    match assignIn? name value chain.outer with
    | some outer => .ok { chain with outer }
    | none => .error (.undefinedVariable name)

@[simp] theorem pop_push (chain : Chain) : chain.push.pop = chain := rfl

end Chain

end Scriptlet
