import Mathlib.Data.Set.Basic
import Scriptlet.Proofs.Run.Refinement

/-! What all runs do because their primitive actions do it. A discipline is a property of
actions that sequencing, scopes and the primitive actions keep; the rules of evaluation then
keep it, whatever the program is. -/
namespace Scriptlet

/-- Names that a statement declares in the scope in which it is executed: those of the
declarations in it that stand in no block. If `steps` is set, the increment of a stepped loop
counts as standing in the loop, though it is kept at the end of a block. -/
inductive Stmt.Declares (steps : Bool) : Stmt → String → Prop where
  | declare {name : String} {type : DeclaredType} {initializer : Option Expr} {line : Nat} :
      Declares steps (.declare name type initializer line) name
  | whenTrue {condition : Expr} {first : Stmt} {second : Option Stmt} {line : Nat} {name : String}
      (inside : Declares steps first name) :
      Declares steps (.branch condition first second line) name
  | whenFalse {condition : Expr} {first second : Stmt} {line : Nat} {name : String}
      (inside : Declares steps second name) :
      Declares steps (.branch condition first (some second) line) name
  | body {condition : Expr} {inner : Stmt} {stepped : Bool} {line : Nat} {name : String}
      (inside : Declares steps inner name) :
      Declares steps (.loop condition inner stepped line) name
  | step {condition : Expr} {inner increment : Stmt} {stepped : Bool} {line : Nat} {name : String}
      (counted : steps = true) (kept : Run.increment? stepped inner = some increment)
      (inside : Declares steps increment name) :
      Declares steps (.loop condition inner stepped line) name

def Stmt.declared (statement : Stmt) : Set String := {name | statement.Declares true name}

namespace Run

open Exec

/-- A sink for every line. A call prints to the sink of its line. -/
abbrev Sinks := Nat → Sink

mutual

/-- Evaluate an expression in at most `steps` steps, where each call has the sink of its line. -/
def evaluateAt (sinks : Sinks) : Nat → Expr → Exec (Option Value)
  | 0 => fun _ => unfinished
  | steps + 1 => fun expression =>
    evaluateOver (sinks expression.line) (evaluateAt sinks steps) (executeAt sinks steps) expression

/-- Execute a statement in at most `steps` steps, where each call has the sink of its line. -/
def executeAt (sinks : Sinks) : Nat → Stmt → Exec Signal
  | 0 => fun _ => unfinished
  | steps + 1 => executeOver (evaluateAt sinks steps) (executeAt sinks steps) steps

end

/-- With one sink for all lines, evaluation and execution are the usual ones. -/
theorem evaluateAt_const (sink : Sink) (steps : Nat) :
    evaluateAt (fun _ => sink) steps = evaluate sink steps ∧
      executeAt (fun _ => sink) steps = execute sink steps := by
  induction steps with
  | zero =>
    rw [evaluateAt, executeAt, evaluate, execute]
    exact ⟨rfl, rfl⟩
  | succ steps ih =>
    rw [evaluateAt, executeAt, evaluate, execute, ih.1, ih.2]
    exact ⟨rfl, rfl⟩

/-- A property of actions, given for all sinks at once, that everything keeps of which runs are
made. The names are those that the action may define in the current scope. -/
structure Discipline where
  Holds {α : Type} (names : Set String) (action : Sinks → Exec α) : Prop
  widen {α : Type} {names more : Set String} {action : Sinks → Exec α} :
    Holds names action → names ⊆ more → Holds more action
  pure {α : Type} (value : α) : Holds ∅ fun _ => pure value
  interrupt {α : Type} (reason : Interruption) : Holds ∅ fun _ => (throw reason : Exec α)
  bind {α β : Type} {names : Set String} {action : Sinks → Exec α} {next : Sinks → α → Exec β} :
    Holds names action → (∀ value, Holds names fun sinks => next sinks value) →
      Holds names fun sinks => action sinks >>= next sinks
  locate {α : Type} {names : Set String} {action : Sinks → Exec α} (line : Nat) :
    Holds names action → Holds names fun sinks => locate line (action sinks)
  inScope {α : Type} {names : Set String} {action : Sinks → Exec α} :
    Holds names action → Holds ∅ fun sinks => inScope (action sinks)
  look {α : Type} (read : Chain → Except ScopeFault α) :
    Holds ∅ fun _ => do scope (read (← get).chain)
  assign (name : String) (value : Value) : Holds ∅ fun _ => assign name value
  define (name : String) (value : Option Value) : Holds {name} fun _ => define name value
  print (line : Nat) (text : String) :
    Holds ∅ fun sinks => Exec.locate line (emit (sinks line) text)

private theorem locate_bind {α β : Type} (line : Nat) (action : Exec α) (next : α → Exec β) :
    locate line (action >>= next) =
      locate line action >>= fun value => locate line (next value) := by
  funext machine
  rw [bind_apply]
  simp only [locate, EStateM.adaptExcept, bind_apply]
  cases action machine <;> rfl

namespace Discipline

variable (discipline : Discipline) {α β : Type} {names : Set String}

theorem unfinished : discipline.Holds ∅ fun _ => (Exec.unfinished : Exec α) :=
  discipline.interrupt .unfinished

theorem failAt (line : Nat) (cause : Cause) :
    discipline.Holds ∅ fun _ => (Exec.failAt line cause : Exec α) :=
  discipline.interrupt _

theorem operator (result : Except OperatorFault α) :
    discipline.Holds ∅ fun _ => Exec.operator result := by
  cases result with
  | ok value => exact discipline.pure value
  | error fault => exact discipline.interrupt _

theorem anyNames {action : Sinks → Exec α} (holds : discipline.Holds ∅ action) :
    discipline.Holds names action :=
  discipline.widen holds (Set.empty_subset names)

theorem mapM {item : Type} {act : Sinks → item → Exec α} (items : List item)
    (each : ∀ one ∈ items, discipline.Holds names fun sinks => act sinks one) :
    discipline.Holds names fun sinks => items.mapM (act sinks) := by
  induction items with
  | nil => exact discipline.anyNames (discipline.pure [])
  | cons first rest ih =>
    obtain ⟨head, tail⟩ := List.forall_mem_cons.mp each
    simp only [List.mapM_cons]
    refine discipline.bind head fun value => ?_
    exact discipline.bind (ih tail) fun values => discipline.anyNames (discipline.pure _)

theorem optionMapM {item : Type} {act : Sinks → item → Exec α} (one : Option item)
    (each : ∀ present ∈ one, discipline.Holds names fun sinks => act sinks present) :
    discipline.Holds names fun sinks => one.mapM (act sinks) := by
  cases one with
  | none => exact discipline.anyNames (discipline.pure none)
  | some present =>
    exact discipline.bind (each present rfl) fun value => discipline.anyNames (discipline.pure _)

section

variable {evaluate : Sinks → Expr → Exec (Option Value)} {execute : Sinks → Stmt → Exec Signal}

/-- Evaluating an expression keeps the discipline and defines nothing. -/
def Evaluates (evaluate : Sinks → Expr → Exec (Option Value)) : Prop :=
  ∀ expression, discipline.Holds ∅ fun sinks => evaluate sinks expression

/-- Executing a statement keeps the discipline and defines only what the statement declares. -/
def Executes (execute : Sinks → Stmt → Exec Signal) : Prop :=
  ∀ statement, discipline.Holds statement.declared fun sinks => execute sinks statement

variable {discipline}
variable (evaluates : discipline.Evaluates evaluate) (executes : discipline.Executes execute)

include evaluates in
theorem valueOf (expression : Expr) :
    discipline.Holds ∅ fun sinks => Run.valueOf (evaluate sinks) expression := by
  refine discipline.bind (evaluates expression) fun result => ?_
  cases result with
  | some value => exact discipline.pure value
  | none =>
    simp only
    split
    · exact discipline.failAt _ _
    · exact discipline.failAt _ _

include executes in
theorem sequence (statements : List Stmt) :
    discipline.Holds Set.univ fun sinks => Run.sequence (execute sinks) statements := by
  induction statements with
  | nil => exact discipline.anyNames (discipline.pure _)
  | cons first rest ih =>
    refine discipline.bind (discipline.widen (executes first) (Set.subset_univ _)) fun signal => ?_
    cases signal with
    | normal => exact ih
    | _ => exact discipline.anyNames (discipline.pure _)

theorem bindParameters (line : Nat) (bindings : List (Parameter × Value)) :
    discipline.Holds Set.univ fun _ => Run.bindParameters line bindings := by
  induction bindings with
  | nil => exact discipline.anyNames (discipline.pure ())
  | cons first rest ih =>
    have defined := discipline.locate line (discipline.define first.1.name (some first.2))
    exact discipline.bind (discipline.widen defined (Set.subset_univ _)) fun _ => ih

include executes in
/-- All that a call defines is gone when it ends. -/
theorem callFunction (function : Function) (values : List Value) (line : Nat) :
    discipline.Holds ∅ fun sinks => Run.callFunction (execute sinks) function values line := by
  simp only [Run.callFunction]
  split
  · exact discipline.failAt _ _
  · have body := discipline.inScope (sequence executes function.body)
    have bound := discipline.bind (bindParameters function.line (function.parameters.zip values))
      fun _ => discipline.anyNames body
    refine discipline.bind (discipline.inScope bound) fun signal => ?_
    cases signal with
    | normal => exact discipline.pure none
    | returned value => exact discipline.pure value
    | left => exact discipline.failAt _ _
    | proceeded => exact discipline.failAt _ _

include evaluates in
theorem printAll (line : Nat) (arguments : List Expr) :
    discipline.Holds ∅ fun sinks =>
      Exec.locate line (Run.printAll (sinks line) (evaluate sinks) arguments) := by
  induction arguments with
  | nil => exact discipline.locate line (discipline.pure ())
  | cons first rest ih =>
    simp only [Run.printAll, locate_bind]
    refine discipline.bind (discipline.locate line (evaluates first)) fun result => ?_
    refine discipline.bind ?_ fun _ => ih
    cases result with
    | some value => exact discipline.print line value.text
    | none => exact discipline.locate line (discipline.pure ())

include evaluates executes in
theorem call (callee : Expr) (arguments : List Expr) (line : Nat) :
    discipline.Holds ∅ fun sinks =>
      Run.call (sinks line) (evaluate sinks) (execute sinks) callee arguments line := by
  simp only [Run.call]
  cases calleeName? callee with
  | none => exact discipline.failAt _ _
  | some name =>
    simp only
    cases Builtin.ofName? name with
    | some builtin =>
      cases builtin
      exact discipline.bind (printAll evaluates line arguments) fun _ => discipline.pure none
    | none =>
      refine discipline.bind
        (discipline.locate line (discipline.look (·.lookupFunction name))) fun function => ?_
      split
      · exact discipline.failAt _ _
      · refine discipline.bind (discipline.mapM arguments fun argument _ =>
          valueOf evaluates argument) fun values => ?_
        exact callFunction executes function values line

include evaluates executes in
theorem evaluateOver (expression : Expr) :
    discipline.Holds ∅ fun sinks =>
      Run.evaluateOver (sinks expression.line) (evaluate sinks) (execute sinks) expression := by
  cases expression with
  | literal value line => exact discipline.pure _
  | parenthesized inner line =>
    exact discipline.bind (valueOf evaluates inner) fun value => discipline.pure _
  | identifier name line =>
    have found := discipline.locate line (discipline.look (·.lookup name))
    exact discipline.bind found fun value => discipline.pure _
  | unary operator operand line =>
    refine discipline.bind (valueOf evaluates operand) fun value => ?_
    refine discipline.bind (discipline.locate line (discipline.operator _)) fun result => ?_
    exact discipline.pure _
  | binary left operator right line =>
    refine discipline.bind (valueOf evaluates left) fun first => ?_
    refine discipline.bind (valueOf evaluates right) fun second => ?_
    refine discipline.bind (discipline.locate line (discipline.operator _)) fun result => ?_
    exact discipline.pure _
  | assign name value line =>
    refine discipline.bind (valueOf evaluates value) fun result => ?_
    refine discipline.bind (discipline.locate line (discipline.assign name result)) fun _ => ?_
    exact discipline.pure _
  | member object name line => exact discipline.failAt _ _
  | call callee arguments line => exact call evaluates executes callee arguments line

include executes in
theorem takeStep (increment : Option Stmt)
    (declared : ∀ step ∈ increment, step.declared ⊆ names) :
    discipline.Holds names fun sinks => Run.takeStep (execute sinks) increment := by
  cases increment with
  | none => exact discipline.anyNames (discipline.pure ())
  | some step =>
    refine discipline.bind (discipline.widen (executes step) (declared step rfl)) fun _ => ?_
    exact discipline.anyNames (discipline.pure ())

theorem repeatWhile {test : Sinks → Exec Bool} {body : Sinks → Exec Signal}
    {step : Sinks → Exec Unit} (tests : discipline.Holds names test)
    (bodies : discipline.Holds names body) (steps : discipline.Holds names step) (count : Nat) :
    discipline.Holds names fun sinks =>
      Run.repeatWhile (test sinks) (body sinks) (step sinks) count := by
  induction count with
  | zero => exact discipline.anyNames discipline.unfinished
  | succ count ih =>
    refine discipline.bind tests fun holds => ?_
    cases holds with
    | false => exact discipline.anyNames (discipline.pure _)
    | true =>
      refine discipline.bind bodies fun signal => ?_
      cases signal with
      | normal => exact ih
      | left => exact discipline.anyNames (discipline.pure _)
      | proceeded => exact discipline.bind steps fun _ => ih
      | returned value => exact discipline.anyNames (discipline.pure _)

include evaluates executes in
theorem executeOver (rounds : Nat) (statement : Stmt) :
    discipline.Holds statement.declared fun sinks =>
      Run.executeOver (evaluate sinks) (execute sinks) rounds statement := by
  have normal {names : Set String} : discipline.Holds names fun _ => Pure.pure Signal.normal :=
    discipline.anyNames (discipline.pure _)
  cases statement with
  | block statements line =>
    exact discipline.anyNames (discipline.inScope (sequence executes statements))
  | evaluate expression line =>
    exact discipline.bind (discipline.anyNames (evaluates expression)) fun _ => normal
  | declare name type initializer line =>
    refine discipline.bind (discipline.anyNames (discipline.optionMapM initializer
      fun initial _ => valueOf evaluates initial)) fun value => ?_
    have defined := discipline.locate line (discipline.define name value)
    refine discipline.bind (discipline.widen defined ?_) fun _ => normal
    rintro _ rfl
    exact Stmt.Declares.declare
  | returns value line =>
    refine discipline.bind (discipline.anyNames (discipline.optionMapM value
      fun result _ => valueOf evaluates result)) fun result => ?_
    exact discipline.anyNames (discipline.pure _)
  | branch condition whenTrue whenFalse line =>
    refine discipline.bind (discipline.anyNames (valueOf evaluates condition)) fun value => ?_
    split
    · exact discipline.widen (executes whenTrue) fun name inside => Stmt.Declares.whenTrue inside
    · cases whenFalse with
      | none => exact normal
      | some other =>
        exact discipline.widen (executes other) fun name inside => Stmt.Declares.whenFalse inside
  | loop condition body stepped line =>
    have tests := discipline.bind (valueOf evaluates condition)
      fun value => discipline.pure value.isTruthy
    refine repeatWhile (discipline.anyNames tests) ?_ ?_ rounds
    · exact discipline.widen (executes body) fun name inside => Stmt.Declares.body inside
    · exact takeStep executes _ fun step kept name inside => Stmt.Declares.step rfl kept inside
  | leave line => exact discipline.anyNames (discipline.pure _)
  | proceed line => exact discipline.anyNames (discipline.pure _)
  | function name parameters result body bodyLine line =>
    exact discipline.anyNames (discipline.failAt _ _)

end

/-- Evaluation and execution keep every discipline, in any number of steps. -/
theorem steps (steps : Nat) :
    discipline.Evaluates (evaluateAt · steps) ∧ discipline.Executes (executeAt · steps) := by
  induction steps with
  | zero =>
    constructor
    · intro expression
      simp only [evaluateAt]
      exact discipline.unfinished
    · intro statement
      simp only [executeAt]
      exact discipline.anyNames discipline.unfinished
  | succ steps ih =>
    constructor
    · intro expression
      simp only [evaluateAt]
      exact evaluateOver ih.1 ih.2 expression
    · intro statement
      simp only [executeAt]
      exact executeOver ih.1 ih.2 steps statement

end Discipline

end Run

end Scriptlet
