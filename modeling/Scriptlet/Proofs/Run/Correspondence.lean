import Scriptlet.Proofs.Run.Refinement

/-! When two runs of one program correspond. A correspondence says which chains of scopes
count as alike, at which depth inside of the scope where they may differ, and which
statements may run there; the rules of evaluation then carry every outcome of the one run,
within its steps, over to the other with as many steps or more. -/
namespace Scriptlet.Run

/-- Results that are alike: alike chains, or the same fault. -/
def Agree (alike : Chain → Chain → Prop) : Except ScopeFault Chain → Except ScopeFault Chain → Prop
  | .ok chain, .ok other => alike chain other
  | .error fault, .error other => fault = other
  | _, _ => False

/-- Chains that are alike for everything a run does to them. The depth counts the scopes that
were entered since; at depth zero, nothing is defined. -/
structure ScopeRelation where
  alike : Nat → Chain → Chain → Prop
  push {depth : Nat} {chain other : Chain} :
    alike depth chain other → alike (depth + 1) chain.push other.push
  pop {depth : Nat} {chain other : Chain} :
    alike (depth + 1) chain other → alike depth chain.pop other.pop
  lookup {depth : Nat} {chain other : Chain} (name : String) :
    alike depth chain other → chain.lookup name = other.lookup name
  lookupFunction {depth : Nat} {chain other : Chain} (name : String) :
    alike depth chain other → chain.lookupFunction name = other.lookupFunction name
  assign {depth : Nat} {chain other : Chain} (name : String) (value : Value) :
    alike depth chain other →
      Agree (alike depth) (chain.assign name value) (other.assign name value)
  define {depth : Nat} {chain other : Chain} (name : String) (value : Option Value) :
    alike (depth + 1) chain other →
      Agree (alike (depth + 1)) (chain.defineVariable name value) (other.defineVariable name value)

/-- Machines with alike chains and the same output. -/
def ScopeRelation.machines (relation : ScopeRelation) (depth : Nat) (first second : Machine) :
    Prop :=
  relation.alike depth first.chain second.chain ∧ first.console = second.console

def Cause.isEscape : Cause → Bool
  | escapedLoopControl _ => true
  | _ => false

/-- A scope relation with the errors that count as alike, the statements that may run at a
depth, in a loop or outside of one, and the signals with which they may end. -/
structure Correspondence extends ScopeRelation where
  errors : Error → Error → Prop
  admits : Nat → Bool → Stmt → Prop
  ends : Bool → Signal → Prop
  located {error other : Error} (line : Nat) :
    errors error other → errors (error.withLine line) (other.withLine line)
  raised {cause : Cause} (line : Option Nat) : cause.isEscape = false →
    errors ⟨cause, line⟩ ⟨cause, line⟩
  escaped {signal : Signal} (error : Error) : ends false signal → signal.controlsLoop = true →
    errors error error
  uncontrolled {inLoop : Bool} {signal : Signal} : signal.controlsLoop = false → ends inLoop signal
  callable {depth : Nat} {chain other : Chain} {name : String} {function : Function} :
    alike depth chain other → chain.lookupFunction name = .ok function →
      ∀ statement ∈ function.body, admits (depth + 2) false statement
  block {depth : Nat} {inLoop : Bool} {statements : List Stmt} {line : Nat} :
    admits depth inLoop (.block statements line) →
      ∀ statement ∈ statements, admits (depth + 1) inLoop statement
  declare {depth : Nat} {inLoop : Bool} {name : String} {type : DeclaredType}
    {value : Option Expr} {line : Nat} :
    admits depth inLoop (.declare name type value line) → depth ≠ 0
  whenTrue {depth : Nat} {inLoop : Bool} {condition : Expr} {first : Stmt} {second : Option Stmt}
    {line : Nat} : admits depth inLoop (.branch condition first second line) →
      admits depth inLoop first
  whenFalse {depth : Nat} {inLoop : Bool} {condition : Expr} {first second : Stmt} {line : Nat} :
    admits depth inLoop (.branch condition first (some second) line) → admits depth inLoop second
  body {depth : Nat} {inLoop : Bool} {condition : Expr} {inner : Stmt} {stepped : Bool}
    {line : Nat} : admits depth inLoop (.loop condition inner stepped line) →
      admits depth true inner
  increment {depth : Nat} {inLoop : Bool} {condition : Expr} {inner step : Stmt} {stepped : Bool}
    {line : Nat} : admits depth inLoop (.loop condition inner stepped line) →
      increment? stepped inner = some step → admits depth true step
  leave {depth : Nat} {inLoop : Bool} {line : Nat} :
    admits depth inLoop (.leave line) → ends inLoop .left
  proceed {depth : Nat} {inLoop : Bool} {line : Nat} :
    admits depth inLoop (.proceed line) → ends inLoop .proceeded

namespace Correspondence

/-- The same signal, and one with which the statement may end. -/
def signals (correspondence : Correspondence) (inLoop : Bool) (signal other : Signal) : Prop :=
  signal = other ∧ correspondence.ends inLoop signal

/-- Refinement at a depth. -/
def Refines {α β : Type} (correspondence : Correspondence) (depth : Nat) (values : α → β → Prop)
    (left : Exec α) (right : Exec β) : Prop :=
  Run.Refines (correspondence.machines depth) correspondence.errors values left right

variable (correspondence : Correspondence) {depth : Nat}

theorem refines_inScope {α β : Type} {values : α → β → Prop} {left : Exec α} {right : Exec β}
    (inside : correspondence.Refines (depth + 1) values left right) :
    correspondence.Refines depth values (Exec.inScope left) (Exec.inScope right) :=
  inside.inScope (fun _ _ machines => ⟨correspondence.push machines.1, machines.2⟩)
    (fun _ _ machines => ⟨correspondence.pop machines.1, machines.2⟩)

theorem refines_raise {α β : Type} {values : α → β → Prop} {cause : Cause}
    (other : cause.isEscape = false) :
    correspondence.Refines depth values (Exec.raise cause) (Exec.raise cause) :=
  .raise (correspondence.raised none other)

theorem refines_failAt {α β : Type} {values : α → β → Prop} {line : Nat} {cause : Cause}
    (other : cause.isEscape = false) :
    correspondence.Refines depth values (Exec.failAt line cause) (Exec.failAt line cause) :=
  .failAt (correspondence.raised (some line) other)

theorem refines_locate {α β : Type} {values : α → β → Prop} {left : Exec α} {right : Exec β}
    {line : Nat} (refines : correspondence.Refines depth values left right) :
    correspondence.Refines depth values (Exec.locate line left) (Exec.locate line right) :=
  refines.locate fun _ _ => correspondence.located line

theorem refines_operator {α : Type} (result : Except OperatorFault α) :
    correspondence.Refines depth Eq (Exec.operator result) (Exec.operator result) := by
  cases result with
  | ok value => exact .pure rfl
  | error fault => exact correspondence.refines_raise rfl

theorem refines_lookup (name : String) :
    correspondence.Refines depth Eq (Exec.lookup name) (Exec.lookup name) := by
  intro machine other machines
  have same := correspondence.lookup name machines.1
  change Outcome.Matches _ _ _ (Exec.scope (machine.chain.lookup name) machine)
    (Exec.scope (other.chain.lookup name) other)
  rw [← same]
  cases machine.chain.lookup name with
  | ok value => exact .ok rfl machines
  | error fault => exact correspondence.refines_raise rfl _ _ machines

/-- Functions that are found are the same, and their bodies may run. -/
theorem refines_lookupFunction (name : String) :
    correspondence.Refines depth
      (fun function other => function = other ∧
        ∀ statement ∈ function.body, correspondence.admits (depth + 2) false statement)
      (Exec.lookupFunction name) (Exec.lookupFunction name) := by
  intro machine other machines
  have same := correspondence.lookupFunction name machines.1
  change Outcome.Matches _ _ _ (Exec.scope (machine.chain.lookupFunction name) machine)
    (Exec.scope (other.chain.lookupFunction name) other)
  rw [← same]
  cases found : machine.chain.lookupFunction name with
  | ok function => exact .ok ⟨rfl, correspondence.callable machines.1 found⟩ machines
  | error fault => exact correspondence.refines_raise rfl _ _ machines

/-- An action that changes the chain, on whose result alike chains agree. -/
theorem refines_change {action : Exec Unit} {change : Chain → Except ScopeFault Chain}
    (run : ∀ machine, action machine =
      match change machine.chain with
      | .ok chain => .ok () { machine with chain }
      | .error fault => .error (.failed (.unplaced (.scope fault))) machine)
    (agree : ∀ chain other, correspondence.alike depth chain other →
      Agree (correspondence.alike depth) (change chain) (change other)) :
    correspondence.Refines depth Eq action action := by
  intro machine other machines
  have same := agree _ _ machines.1
  rw [run, run]
  cases first : change machine.chain <;> cases second : change other.chain
  all_goals simp only [first, second, Agree] at same
  case error.error fault _ =>
    subst same
    exact .failed (correspondence.raised none rfl) machines
  case ok.ok => exact .ok rfl ⟨same, machines.2⟩

theorem define_apply (name : String) (value : Option Value) (machine : Machine) :
    Exec.define name value machine =
      match machine.chain.defineVariable name value with
      | .ok chain => .ok () { machine with chain }
      | .error fault => .error (.failed (.unplaced (.scope fault))) machine := by
  change (Exec.scope (machine.chain.defineVariable name value) >>= fun chain =>
    modify fun machine => { machine with chain }) machine = _
  cases machine.chain.defineVariable name value <;> rfl

theorem assign_apply (name : String) (value : Value) (machine : Machine) :
    Exec.assign name value machine =
      match machine.chain.assign name value with
      | .ok chain => .ok () { machine with chain }
      | .error fault => .error (.failed (.unplaced (.scope fault))) machine := by
  change (Exec.scope (machine.chain.assign name value) >>= fun chain =>
    modify fun machine => { machine with chain }) machine = _
  cases machine.chain.assign name value <;> rfl

theorem refines_define (name : String) (value : Option Value) :
    correspondence.Refines (depth + 1) Eq (Exec.define name value) (Exec.define name value) :=
  correspondence.refines_change (define_apply name value)
    fun _ _ => correspondence.define name value

theorem refines_assign (name : String) (value : Value) :
    correspondence.Refines depth Eq (Exec.assign name value) (Exec.assign name value) :=
  correspondence.refines_change (assign_apply name value)
    fun _ _ => correspondence.assign name value

theorem offer_apply (sink : Sink) (text : String) (machine : Machine) :
    Exec.offer sink text machine =
      match sink.refusal machine.console.offers text with
      | none => .ok ()
          { machine with console := ⟨machine.console.texts.push text, machine.console.offers + 1⟩ }
      | some reason => .error (.failed (.unplaced (.writeRefused reason)))
          { machine with console := ⟨machine.console.texts, machine.console.offers + 1⟩ } := by
  have reached : (get : Exec Machine) machine = .ok machine machine := rfl
  rw [Exec.offer, bind_apply, reached]
  simp only
  cases sink.refusal machine.console.offers text <;> rfl

theorem refines_emit (sink : Sink) (text : String) :
    correspondence.Refines depth Eq (Exec.emit sink text) (Exec.emit sink text) := by
  rw [Exec.emit]
  split
  · exact .pure rfl
  · rintro ⟨chain, console⟩ ⟨other, _⟩ ⟨alike, rfl⟩
    rw [offer_apply, offer_apply]
    cases sink.refusal console.offers text with
    | none => exact .ok rfl ⟨alike, rfl⟩
    | some reason => exact .failed (correspondence.raised none rfl) ⟨alike, rfl⟩

section

variable {evaluate otherEvaluate : Expr → Exec (Option Value)}
  {execute otherExecute : Stmt → Exec Signal}

/-- Evaluations of one expression correspond at every depth. -/
def Evaluates (evaluate otherEvaluate : Expr → Exec (Option Value)) : Prop :=
  ∀ depth expression,
    correspondence.Refines depth Eq (evaluate expression) (otherEvaluate expression)

/-- Executions of one statement correspond wherever it may run. -/
def Executes (execute otherExecute : Stmt → Exec Signal) : Prop :=
  ∀ depth inLoop statement, correspondence.admits depth inLoop statement →
    correspondence.Refines depth (correspondence.signals inLoop) (execute statement)
      (otherExecute statement)

variable {correspondence}
variable (evaluates : correspondence.Evaluates evaluate otherEvaluate)
  (executes : correspondence.Executes execute otherExecute)

include evaluates in
theorem refines_valueOf (expression : Expr) :
    correspondence.Refines depth Eq (valueOf evaluate expression)
      (valueOf otherEvaluate expression) := by
  refine (evaluates depth expression).bind ?_
  rintro result _ rfl
  cases result with
  | some value => exact .pure rfl
  | none =>
    simp only
    split
    · exact correspondence.refines_failAt rfl
    · exact correspondence.refines_failAt rfl

include executes in
theorem refines_sequence {inLoop : Bool} (statements : List Stmt)
    (admitted : ∀ statement ∈ statements, correspondence.admits depth inLoop statement) :
    correspondence.Refines depth (correspondence.signals inLoop) (sequence execute statements)
      (sequence otherExecute statements) := by
  induction statements with
  | nil => exact .pure ⟨rfl, correspondence.uncontrolled rfl⟩
  | cons first rest ih =>
    obtain ⟨head, tail⟩ := List.forall_mem_cons.mp admitted
    refine (executes depth inLoop first head).bind ?_
    rintro signal _ ⟨rfl, ends⟩
    cases signal with
    | normal => exact ih tail
    | _ => exact .pure ⟨rfl, ends⟩

theorem refines_bindParameters (line : Nat) (bindings : List (Parameter × Value)) :
    correspondence.Refines (depth + 1) Eq (bindParameters line bindings)
      (bindParameters line bindings) := by
  induction bindings with
  | nil => exact .pure rfl
  | cons first rest ih =>
    refine (correspondence.refines_locate (correspondence.refines_define _ _)).bind ?_
    rintro _ _ _
    exact ih

include executes in
theorem refines_callFunction (function : Function) (values : List Value) (line : Nat)
    (admitted : ∀ statement ∈ function.body, correspondence.admits (depth + 2) false statement) :
    correspondence.Refines depth Eq (callFunction execute function values line)
      (callFunction otherExecute function values line) := by
  rw [callFunction, callFunction]
  split
  · exact correspondence.refines_failAt rfl
  · have body := refines_sequence executes function.body admitted
    have inside := correspondence.refines_inScope
      ((refines_bindParameters function.line (function.parameters.zip values)).bind
        fun _ _ _ => correspondence.refines_inScope body)
    refine inside.bind ?_
    rintro signal _ ⟨rfl, ends⟩
    cases signal with
    | normal => exact .pure rfl
    | returned value => exact .pure rfl
    | left => exact .failAt (correspondence.escaped _ ends rfl)
    | proceeded => exact .failAt (correspondence.escaped _ ends rfl)

include evaluates in
theorem refines_printAll (sink : Sink) (arguments : List Expr) :
    correspondence.Refines depth Eq (printAll sink evaluate arguments)
      (printAll sink otherEvaluate arguments) := by
  induction arguments with
  | nil => exact .pure rfl
  | cons first rest ih =>
    refine (evaluates depth first).bind ?_
    rintro result _ rfl
    have printed : correspondence.Refines depth Eq (printResult sink result)
        (printResult sink result) := by
      cases result with
      | some value => exact correspondence.refines_emit sink value.text
      | none => exact .pure rfl
    exact printed.bind fun _ _ _ => ih

include evaluates executes in
theorem refines_call (sink : Sink) (callee : Expr) (arguments : List Expr) (line : Nat) :
    correspondence.Refines depth Eq (call sink evaluate execute callee arguments line)
      (call sink otherEvaluate otherExecute callee arguments line) := by
  rw [call, call]
  cases calleeName? callee with
  | none => exact correspondence.refines_failAt rfl
  | some name =>
    simp only
    cases Builtin.ofName? name with
    | some builtin =>
      cases builtin
      exact (correspondence.refines_locate (refines_printAll evaluates sink arguments)).bind
        fun _ _ _ => .pure rfl
    | none =>
      refine (correspondence.refines_locate (correspondence.refines_lookupFunction name)).bind ?_
      rintro function _ ⟨rfl, admitted⟩
      split
      · exact correspondence.refines_failAt rfl
      · refine (Run.Refines.mapM arguments fun argument _ =>
          refines_valueOf evaluates argument).bind ?_
        rintro values _ rfl
        exact refines_callFunction executes function values line admitted

include evaluates executes in
theorem refines_evaluateOver (sink : Sink) (expression : Expr) :
    correspondence.Refines depth Eq (evaluateOver sink evaluate execute expression)
      (evaluateOver sink otherEvaluate otherExecute expression) := by
  cases expression with
  | literal value line => exact .pure rfl
  | parenthesized inner line =>
    refine (refines_valueOf evaluates inner).bind ?_
    rintro value _ rfl
    exact .pure rfl
  | identifier name line =>
    refine (correspondence.refines_locate (correspondence.refines_lookup name)).bind ?_
    rintro value _ rfl
    exact .pure rfl
  | unary operator operand line =>
    refine (refines_valueOf evaluates operand).bind ?_
    rintro value _ rfl
    refine (correspondence.refines_locate (correspondence.refines_operator _)).bind ?_
    rintro result _ rfl
    exact .pure rfl
  | binary left operator right line =>
    refine (refines_valueOf evaluates left).bind ?_
    rintro first _ rfl
    refine (refines_valueOf evaluates right).bind ?_
    rintro second _ rfl
    refine (correspondence.refines_locate (correspondence.refines_operator _)).bind ?_
    rintro result _ rfl
    exact .pure rfl
  | assign name value line =>
    refine (refines_valueOf evaluates value).bind ?_
    rintro result _ rfl
    exact (correspondence.refines_locate (correspondence.refines_assign name result)).bind
      fun _ _ _ => .pure rfl
  | member object name line => exact correspondence.refines_failAt rfl
  | call callee arguments line => exact refines_call evaluates executes sink callee arguments line

include executes in
theorem refines_takeStep (increment : Option Stmt)
    (admitted : ∀ step ∈ increment, correspondence.admits depth true step) :
    correspondence.Refines depth Eq (takeStep execute increment)
      (takeStep otherExecute increment) := by
  cases increment with
  | none => exact .pure rfl
  | some step => exact (executes depth true step (admitted step rfl)).bind fun _ _ _ => .pure rfl

include evaluates in
theorem refines_test (condition : Expr) :
    correspondence.Refines depth Eq (do return (← valueOf evaluate condition).isTruthy)
      (do return (← valueOf otherEvaluate condition).isTruthy) := by
  refine (refines_valueOf evaluates condition).bind ?_
  rintro value _ rfl
  exact .pure rfl

include evaluates executes in
theorem refines_executeOver {count rounds : Nat} (fewer : count ≤ rounds) {inLoop : Bool}
    (statement : Stmt) (admitted : correspondence.admits depth inLoop statement) :
    correspondence.Refines depth (correspondence.signals inLoop)
      (executeOver evaluate execute count statement)
      (executeOver otherEvaluate otherExecute rounds statement) := by
  have normal : correspondence.signals inLoop .normal .normal :=
    ⟨rfl, correspondence.uncontrolled rfl⟩
  cases statement with
  | block statements line =>
    exact correspondence.refines_inScope
      (refines_sequence executes statements (correspondence.block admitted))
  | evaluate expression line => exact (evaluates depth expression).bind fun _ _ _ => .pure normal
  | declare name type initializer line =>
    -- A declaration is admitted only where the current scopes are alike.
    obtain ⟨depth, rfl⟩ := Nat.exists_eq_succ_of_ne_zero (correspondence.declare admitted)
    refine (Run.Refines.optionMapM initializer fun initial _ =>
      refines_valueOf evaluates initial).bind ?_
    rintro value _ rfl
    exact (correspondence.refines_locate (correspondence.refines_define name value)).bind
      fun _ _ _ => .pure normal
  | returns value line =>
    refine (Run.Refines.optionMapM value fun result _ => refines_valueOf evaluates result).bind ?_
    rintro result _ rfl
    exact .pure ⟨rfl, correspondence.uncontrolled rfl⟩
  | branch condition whenTrue whenFalse line =>
    refine (refines_valueOf evaluates condition).bind ?_
    rintro value _ rfl
    split
    · exact executes depth inLoop whenTrue (correspondence.whenTrue admitted)
    · cases whenFalse with
      | none => exact .pure normal
      | some other => exact executes depth inLoop other (correspondence.whenFalse admitted)
  | loop condition body stepped line =>
    have bodies := (executes depth true body (correspondence.body admitted)).weaken
      fun _ _ signals => signals.1
    have steps := refines_takeStep executes (increment? stepped body)
      fun _ present => correspondence.increment admitted present
    exact (Run.Refines.repeatWhile (refines_test evaluates condition) bodies steps fewer).weaken
      fun _ _ signals => ⟨signals.1, correspondence.uncontrolled signals.2⟩
  | leave line => exact .pure ⟨rfl, correspondence.leave admitted⟩
  | proceed line => exact .pure ⟨rfl, correspondence.proceed admitted⟩
  | function name parameters result body bodyLine line => exact correspondence.refines_failAt rfl

end

/-- Evaluation and execution in some steps are refined by those in as many steps or more. -/
theorem refines_steps (sink : Sink) {steps more : Nat} (fewer : steps ≤ more) :
    correspondence.Evaluates (evaluate sink steps) (evaluate sink more) ∧
      correspondence.Executes (execute sink steps) (execute sink more) := by
  induction steps generalizing more with
  | zero =>
    constructor
    · intro depth expression
      rw [evaluate]
      exact .unfinished
    · intro depth inLoop statement _
      rw [execute]
      exact .unfinished
  | succ steps ih =>
    obtain ⟨more, rfl⟩ : ∃ less, more = less + 1 := ⟨more - 1, by omega⟩
    have within : steps ≤ more := Nat.le_of_succ_le_succ fewer
    obtain ⟨evaluates, executes⟩ := ih within
    constructor
    · intro depth expression
      rw [evaluate, evaluate]
      exact refines_evaluateOver evaluates executes sink expression
    · intro depth inLoop statement admitted
      rw [execute, execute]
      exact refines_executeOver evaluates executes within statement admitted

end Correspondence

end Scriptlet.Run
