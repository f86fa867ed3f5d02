import Scriptlet.Proofs.Run.Failing
import Scriptlet.Proofs.Run.Nodes

/-! The stages of a run. Each is at one node of the program, and comes to others: to the parts of
the node, in their order, and to the function that is called. An error arises at one stage, and is
the error of all stages from which this one is reached. -/
namespace Scriptlet.Run

open Exec

/-- What a run has to do at a node: evaluate an expression where a value is needed or where it is
not, execute a statement, or call a function. -/
inductive Activity where
  | value (tree : Expr)
  | result (tree : Expr)
  | statement (tree : Stmt)
  | call (function : Function) (values : List Value)

def Activity.node : Activity → Node
  | value tree => .expression tree
  | result tree => .expression tree
  | statement tree => .statement tree
  | call function _ => .function function

/-- An activity when a run comes to it, with the steps that it is allowed and the machine. -/
structure Stage where
  steps : Nat
  activity : Activity
  machine : Machine

namespace Stage

def node (stage : Stage) : Node := stage.activity.node

def Fails (sink : Sink) (stage : Stage) (error : Error) : Prop :=
  match stage.activity with
  | .value tree => Run.Fails (valueOf (evaluate sink stage.steps) tree) stage.machine error
  | .result tree => Run.Fails (evaluate sink stage.steps tree) stage.machine error
  | .statement tree => Run.Fails (execute sink stage.steps tree) stage.machine error
  | .call function values =>
    Run.Fails (callFunction (execute sink stage.steps) function values function.line)
      stage.machine error

end Stage

/-- What a stage comes to: the parts of its node, in the order in which they are evaluated, each
behind others that have a result, and the function that it calls. -/
inductive Comes (sink : Sink) : Stage → Stage → Prop where
  | result {steps : Nat} {tree : Expr} {machine : Machine} :
      Comes sink ⟨steps, .value tree, machine⟩ ⟨steps, .result tree, machine⟩
  | parenthesized {steps line : Nat} {inner : Expr} {machine : Machine} :
      Comes sink ⟨steps + 1, .result (.parenthesized inner line), machine⟩
        ⟨steps, .value inner, machine⟩
  | operand {steps line : Nat} {operator : UnaryOperator} {operand : Expr} {machine : Machine} :
      Comes sink ⟨steps + 1, .result (.unary operator operand line), machine⟩
        ⟨steps, .value operand, machine⟩
  | left {steps line : Nat} {operator : BinaryOperator} {left right : Expr} {machine : Machine} :
      Comes sink ⟨steps + 1, .result (.binary left operator right line), machine⟩
        ⟨steps, .value left, machine⟩
  | right {steps line : Nat} {operator : BinaryOperator} {left right : Expr}
      {machine after : Machine} {first : Value}
      (evaluated : valueOf (evaluate sink steps) left machine = .ok first after) :
      Comes sink ⟨steps + 1, .result (.binary left operator right line), machine⟩
        ⟨steps, .value right, after⟩
  | assigned {steps line : Nat} {name : String} {value : Expr} {machine : Machine} :
      Comes sink ⟨steps + 1, .result (.assign name value line), machine⟩
        ⟨steps, .value value, machine⟩
  | printed {steps line : Nat} {callee argument : Expr} {arguments : List Expr} {name : String}
      {machine reached : Machine} (prints : Prints callee name)
      (arrives : Arrives (printOne sink (evaluate sink steps)) (fun _ => True) arguments machine
        argument reached) :
      Comes sink ⟨steps + 1, .result (.call callee arguments line), machine⟩
        ⟨steps, .result argument, reached⟩
  | argument {steps line : Nat} {callee argument : Expr} {arguments : List Expr} {name : String}
      {function : Function} {machine reached : Machine} (finds : Finds machine callee name function)
      (enough : arguments.length = function.parameters.length)
      (arrives : Arrives (valueOf (evaluate sink steps)) (fun _ => True) arguments machine
        argument reached) :
      Comes sink ⟨steps + 1, .result (.call callee arguments line), machine⟩
        ⟨steps, .value argument, reached⟩
  | called {steps line : Nat} {callee : Expr} {arguments : List Expr} {name : String}
      {function : Function} {values : List Value} {machine after : Machine}
      (finds : Finds machine callee name function)
      (enough : arguments.length = function.parameters.length)
      (evaluated : arguments.mapM (valueOf (evaluate sink steps)) machine = .ok values after) :
      Comes sink ⟨steps + 1, .result (.call callee arguments line), machine⟩
        ⟨steps, .call function values, after⟩
  | body {steps : Nat} {function : Function} {values : List Value} {statement : Stmt}
      {machine bound reached : Machine}
      (enough : values.length = function.parameters.length)
      (binds : bindParameters function.line (function.parameters.zip values) machine.inside =
        .ok () bound)
      (arrives : Arrives (execute sink steps) (· = .normal) function.body bound.inside
        statement reached) :
      Comes sink ⟨steps, .call function values, machine⟩ ⟨steps, .statement statement, reached⟩
  | statement {steps line : Nat} {statements : List Stmt} {statement : Stmt}
      {machine reached : Machine}
      (arrives : Arrives (execute sink steps) (· = .normal) statements machine.inside
        statement reached) :
      Comes sink ⟨steps + 1, .statement (.block statements line), machine⟩
        ⟨steps, .statement statement, reached⟩
  | evaluated {steps line : Nat} {expression : Expr} {machine : Machine} :
      Comes sink ⟨steps + 1, .statement (.evaluate expression line), machine⟩
        ⟨steps, .result expression, machine⟩
  | initial {steps line : Nat} {name : String} {type : DeclaredType} {value : Expr}
      {machine : Machine} :
      Comes sink ⟨steps + 1, .statement (.declare name type (some value) line), machine⟩
        ⟨steps, .value value, machine⟩
  | returned {steps line : Nat} {value : Expr} {machine : Machine} :
      Comes sink ⟨steps + 1, .statement (.returns (some value) line), machine⟩
        ⟨steps, .value value, machine⟩
  | condition {steps line : Nat} {condition : Expr} {whenTrue : Stmt} {whenFalse : Option Stmt}
      {machine : Machine} :
      Comes sink ⟨steps + 1, .statement (.branch condition whenTrue whenFalse line), machine⟩
        ⟨steps, .value condition, machine⟩
  | whenTrue {steps line : Nat} {condition : Expr} {whenTrue : Stmt} {whenFalse : Option Stmt}
      {machine after : Machine} {value : Value}
      (evaluated : valueOf (evaluate sink steps) condition machine = .ok value after)
      (holds : value.isTruthy = true) :
      Comes sink ⟨steps + 1, .statement (.branch condition whenTrue whenFalse line), machine⟩
        ⟨steps, .statement whenTrue, after⟩
  | whenFalse {steps line : Nat} {condition : Expr} {whenTrue whenFalse : Stmt}
      {machine after : Machine} {value : Value}
      (evaluated : valueOf (evaluate sink steps) condition machine = .ok value after)
      (fails : value.isTruthy = false) :
      Comes sink ⟨steps + 1, .statement (.branch condition whenTrue (some whenFalse) line), machine⟩
        ⟨steps, .statement whenFalse, after⟩
  | test {steps line : Nat} {condition : Expr} {body : Stmt} {stepped : Bool}
      {machine reached : Machine}
      (repeats : Repeats (conditionHolds (evaluate sink steps) condition) (execute sink steps body)
        (takeStep (execute sink steps) (increment? stepped body)) steps machine reached) :
      Comes sink ⟨steps + 1, .statement (.loop condition body stepped line), machine⟩
        ⟨steps, .value condition, reached⟩
  | round {steps line : Nat} {condition : Expr} {body : Stmt} {stepped : Bool}
      {machine reached tested : Machine}
      (repeats : Repeats (conditionHolds (evaluate sink steps) condition) (execute sink steps body)
        (takeStep (execute sink steps) (increment? stepped body)) steps machine reached)
      (holds : conditionHolds (evaluate sink steps) condition reached = .ok true tested) :
      Comes sink ⟨steps + 1, .statement (.loop condition body stepped line), machine⟩
        ⟨steps, .statement body, tested⟩
  | step {steps line : Nat} {condition : Expr} {body step : Stmt} {stepped : Bool}
      {machine reached tested ended : Machine}
      (repeats : Repeats (conditionHolds (evaluate sink steps) condition) (execute sink steps body)
        (takeStep (execute sink steps) (increment? stepped body)) steps machine reached)
      (holds : conditionHolds (evaluate sink steps) condition reached = .ok true tested)
      (done : execute sink steps body tested = .ok .proceeded ended)
      (kept : increment? stepped body = some step) :
      Comes sink ⟨steps + 1, .statement (.loop condition body stepped line), machine⟩
        ⟨steps, .statement step, ended⟩

/-- Errors of a stage itself: whatever it comes to has a result, and with these results it fails.
The line is that of its node. -/
inductive Raised (sink : Sink) : Stage → Error → Prop where
  | noValue {steps line nameLine : Nat} {name : String} {arguments : List Expr}
      {machine after : Machine}
      (evaluated : evaluate sink steps (.call (.identifier name nameLine) arguments line) machine =
        .ok none after) :
      Raised sink ⟨steps, .value (.call (.identifier name nameLine) arguments line), machine⟩
        (.atLine (.noValue name) line)
  | identifier {steps line : Nat} {name : String} {machine : Machine} {fault : ScopeFault}
      (failed : machine.chain.lookup name = .error fault) :
      Raised sink ⟨steps + 1, .result (.identifier name line), machine⟩
        (.atLine (.scope fault) line)
  | unary {steps line : Nat} {operator : UnaryOperator} {operand : Expr} {value : Value}
      {machine after : Machine} {fault : OperatorFault}
      (evaluated : valueOf (evaluate sink steps) operand machine = .ok value after)
      (failed : operator.apply value = .error fault) :
      Raised sink ⟨steps + 1, .result (.unary operator operand line), machine⟩
        (.atLine (.operator fault) line)
  | binary {steps line : Nat} {operator : BinaryOperator} {left right : Expr}
      {first second : Value} {machine middle after : Machine} {fault : OperatorFault}
      (evaluated : valueOf (evaluate sink steps) left machine = .ok first middle)
      (other : valueOf (evaluate sink steps) right middle = .ok second after)
      (failed : operator.apply first second = .error fault) :
      Raised sink ⟨steps + 1, .result (.binary left operator right line), machine⟩
        (.atLine (.operator fault) line)
  | assign {steps line : Nat} {name : String} {tree : Expr} {value : Value}
      {machine after : Machine} {fault : ScopeFault}
      (evaluated : valueOf (evaluate sink steps) tree machine = .ok value after)
      (failed : after.chain.assign name value = .error fault) :
      Raised sink ⟨steps + 1, .result (.assign name tree line), machine⟩
        (.atLine (.scope fault) line)
  | member {steps line : Nat} {object : Expr} {name : String} {machine : Machine} :
      Raised sink ⟨steps + 1, .result (.member object name line), machine⟩
        (.atLine (.memberAccess name) line)
  | unnamed {steps line : Nat} {callee : Expr} {arguments : List Expr} {machine : Machine}
      (noName : calleeName? callee = none) :
      Raised sink ⟨steps + 1, .result (.call callee arguments line), machine⟩
        (.atLine .unnamedCallee line)
  | print {steps line : Nat} {callee argument : Expr} {arguments : List Expr}
      {name reason : String} {value : Value} {machine reached after : Machine}
      (prints : Prints callee name)
      (arrives : Arrives (printOne sink (evaluate sink steps)) (fun _ => True) arguments machine
        argument reached)
      (evaluated : evaluate sink steps argument reached = .ok (some value) after)
      (some : value.text.isEmpty = false)
      (refused : sink.refusal after.console.offers value.text = .some reason) :
      Raised sink ⟨steps + 1, .result (.call callee arguments line), machine⟩
        (.atLine (.writeRefused reason) line)
  | unknown {steps line : Nat} {callee : Expr} {arguments : List Expr} {name : String}
      {machine : Machine} {fault : ScopeFault} (named : calleeName? callee = some name)
      (noBuiltin : Builtin.ofName? name = none)
      (failed : machine.chain.lookupFunction name = .error fault) :
      Raised sink ⟨steps + 1, .result (.call callee arguments line), machine⟩
        (.atLine (.scope fault) line)
  | arity {steps line : Nat} {callee : Expr} {arguments : List Expr} {name : String}
      {function : Function} {machine : Machine} (finds : Finds machine callee name function)
      (different : arguments.length ≠ function.parameters.length) :
      Raised sink ⟨steps + 1, .result (.call callee arguments line), machine⟩
        (.atLine (.arity name function.parameters.length arguments.length) line)
  | supply {steps : Nat} {function : Function} {values : List Value} {machine : Machine}
      (different : values.length ≠ function.parameters.length) :
      Raised sink ⟨steps, .call function values, machine⟩
        (.atLine (.arity function.name function.parameters.length values.length) function.line)
  | parameter {steps : Nat} {function : Function} {values : List Value} {parameter : Parameter}
      {value : Value} {machine reached : Machine} {fault : ScopeFault}
      (enough : values.length = function.parameters.length)
      (arrives : Arrives (bindOne function.line) (fun _ => True) (function.parameters.zip values)
        machine.inside (parameter, value) reached)
      (failed : reached.chain.defineVariable parameter.name (some value) = .error fault) :
      Raised sink ⟨steps, .call function values, machine⟩ (.atLine (.scope fault) function.line)
  | escape {steps : Nat} {function : Function} {values : List Value} {signal : Signal}
      {machine bound ended : Machine} (enough : values.length = function.parameters.length)
      (binds : bindParameters function.line (function.parameters.zip values) machine.inside =
        .ok () bound)
      (done : sequence (execute sink steps) function.body bound.inside = .ok signal ended)
      (controls : signal.controlsLoop = true) :
      Raised sink ⟨steps, .call function values, machine⟩
        (.atLine (.escapedLoopControl function.name) function.line)
  | declare {steps line : Nat} {name : String} {type : DeclaredType} {initializer : Option Expr}
      {value : Option Value} {machine after : Machine} {fault : ScopeFault}
      (evaluated : initializer.mapM (valueOf (evaluate sink steps)) machine = .ok value after)
      (failed : after.chain.defineVariable name value = .error fault) :
      Raised sink ⟨steps + 1, .statement (.declare name type initializer line), machine⟩
        (.atLine (.scope fault) line)
  | nested {steps bodyLine line : Nat} {name : String} {parameters : List Parameter}
      {result : DeclaredType} {body : List Stmt} {machine : Machine} :
      Raised sink
        ⟨steps + 1, .statement (.function name parameters result body bodyLine line), machine⟩
        (.atLine (.nestedFunction name) line)

namespace Stage

variable {sink : Sink} {steps : Nat} {machine : Machine} {error : Error}

theorem fails_result {tree : Expr} :
    Fails sink ⟨steps + 1, .result tree, machine⟩ error ↔
      Run.Fails (evaluateOver sink (evaluate sink steps) (execute sink steps) tree) machine
        error := by
  simp only [Fails, evaluate]

theorem fails_statement {tree : Stmt} :
    Fails sink ⟨steps + 1, .statement tree, machine⟩ error ↔
      Run.Fails (executeOver (evaluate sink steps) (execute sink steps) steps tree) machine
        error := by
  simp only [Fails, execute]

end Stage

variable {sink : Sink} {stage part : Stage} {error : Error}

theorem Raised.fails (raised : Raised sink stage error) : stage.Fails sink error := by
  cases raised with
  | noValue evaluated => exact fails_next evaluated (fails_failAt.mpr rfl)
  | identifier failed =>
    apply Stage.fails_result.mpr
    exact fails_first (fails_lookup.mpr ⟨_, failed, rfl⟩)
  | unary evaluated failed =>
    apply Stage.fails_result.mpr
    exact fails_next evaluated (fails_first (fails_operator.mpr ⟨_, failed, rfl⟩))
  | binary evaluated other failed =>
    apply Stage.fails_result.mpr
    refine fails_next evaluated (fails_next other ?_)
    exact fails_first (fails_operator.mpr ⟨_, failed, rfl⟩)
  | assign evaluated failed =>
    apply Stage.fails_result.mpr
    exact fails_next evaluated (fails_first (fails_assign.mpr ⟨_, failed, rfl⟩))
  | member => exact Stage.fails_result.mpr (fails_failAt.mpr rfl)
  | unnamed noName =>
    apply Stage.fails_result.mpr
    rw [evaluateOver, call, noName]
    exact fails_failAt.mpr rfl
  | print prints arrives evaluated some refused =>
    apply Stage.fails_result.mpr
    rw [evaluateOver, prints.fails_call]
    have printing := fails_emit.mpr ⟨some, _, refused, rfl⟩
    exact fails_locate.mpr
      ⟨_, fails_printAll.mpr ⟨_, _, arrives, fails_next evaluated printing⟩, rfl⟩
  | unknown named noBuiltin failed =>
    apply Stage.fails_result.mpr
    simp only [evaluateOver, call, named, noBuiltin]
    exact fails_first (fails_lookupFunction.mpr ⟨_, failed, rfl⟩)
  | arity finds different =>
    apply Stage.fails_result.mpr
    rw [evaluateOver, Fails, finds.call_eq, if_pos different]
    exact fails_failAt.mpr rfl
  | supply different => exact (fails_callFunction_arity different).mpr rfl
  | parameter enough arrives failed =>
    apply (fails_callFunction enough).mpr
    exact .inl (fails_bindParameters.mpr ⟨_, _, arrives, fails_define.mpr ⟨_, failed, rfl⟩⟩)
  | escape enough binds done controls =>
    exact (fails_callFunction enough).mpr (.inr ⟨_, binds, .inr ⟨_, _, done, controls, rfl⟩⟩)
  | declare evaluated failed =>
    apply Stage.fails_statement.mpr
    exact fails_next evaluated (fails_first (fails_define.mpr ⟨_, failed, rfl⟩))
  | nested => exact Stage.fails_statement.mpr (fails_failAt.mpr rfl)

/-- An error that has a line goes out through the stages unchanged. -/
theorem Comes.fails (comes : Comes sink stage part) (failed : part.Fails sink error)
    {own : Nat} (placed : error.line = some own) : stage.Fails sink error := by
  cases comes with
  | result => exact fails_first failed
  | parenthesized => exact Stage.fails_result.mpr (fails_first failed)
  | operand => exact Stage.fails_result.mpr (fails_first failed)
  | left => exact Stage.fails_result.mpr (fails_first failed)
  | right evaluated => exact Stage.fails_result.mpr (fails_next evaluated (fails_first failed))
  | assigned => exact Stage.fails_result.mpr (fails_first failed)
  | printed prints arrives =>
    apply Stage.fails_result.mpr
    rw [evaluateOver, prints.fails_call]
    exact fails_placed (fails_printAll.mpr ⟨_, _, arrives, fails_first failed⟩) placed _
  | argument finds enough arrives =>
    apply Stage.fails_result.mpr
    rw [evaluateOver, finds.fails_call enough]
    exact .inl (fails_mapM.mpr ⟨_, _, arrives, failed⟩)
  | called finds enough evaluated =>
    apply Stage.fails_result.mpr
    rw [evaluateOver, finds.fails_call enough]
    exact .inr ⟨_, _, evaluated, failed⟩
  | body enough binds arrives =>
    apply (fails_callFunction enough).mpr
    exact .inr ⟨_, binds, .inl (fails_sequence.mpr ⟨_, _, arrives, failed⟩)⟩
  | statement arrives =>
    apply Stage.fails_statement.mpr
    exact fails_inScope.mpr (fails_sequence.mpr ⟨_, _, arrives, failed⟩)
  | evaluated => exact Stage.fails_statement.mpr (fails_first failed)
  | initial => exact Stage.fails_statement.mpr (fails_first (fails_optionMapM.mpr ⟨_, rfl, failed⟩))
  | returned =>
    exact Stage.fails_statement.mpr (fails_first (fails_optionMapM.mpr ⟨_, rfl, failed⟩))
  | condition => exact Stage.fails_statement.mpr (fails_first failed)
  | whenTrue evaluated holds =>
    apply Stage.fails_statement.mpr
    refine fails_next evaluated ?_
    rw [if_pos holds]
    exact failed
  | whenFalse evaluated fails =>
    apply Stage.fails_statement.mpr
    refine fails_next evaluated ?_
    rw [if_neg (by simp [fails])]
    exact failed
  | test repeats =>
    apply Stage.fails_statement.mpr
    exact fails_repeatWhile.mpr ⟨_, repeats, .inl (fails_first failed)⟩
  | round repeats holds =>
    apply Stage.fails_statement.mpr
    exact fails_repeatWhile.mpr ⟨_, repeats, .inr ⟨_, holds, .inl failed⟩⟩
  | step repeats holds done kept =>
    have taken := fails_takeStep.mpr ⟨_, kept, failed⟩
    apply Stage.fails_statement.mpr
    exact fails_repeatWhile.mpr ⟨_, repeats, .inr ⟨_, holds, .inr ⟨_, done, taken⟩⟩⟩

/-- An error arises at a stage itself, or at one that it comes to. -/
def Stage.Accounts (sink : Sink) (stage : Stage) (error : Error) : Prop :=
  Raised sink stage error ∨ ∃ part, Comes sink stage part ∧ part.Fails sink error

section

variable {steps : Nat} {machine : Machine}

/-- Only a call by name may have no value. -/
theorem callee_of_none {tree : Expr} {after : Machine}
    (evaluated : evaluate sink steps tree machine = .ok none after) :
    ∃ name nameLine arguments line, tree = .call (.identifier name nameLine) arguments line := by
  cases steps with
  | zero => cases evaluated
  | succ steps =>
    rw [evaluate] at evaluated
    cases tree with
    | literal value line => cases evaluated
    | member object name line => cases evaluated
    | parenthesized inner line =>
      obtain ⟨_, _, _, ⟨⟩⟩ := bind_eq_ok.mp evaluated
    | identifier name line =>
      obtain ⟨_, _, _, ⟨⟩⟩ := bind_eq_ok.mp evaluated
    | unary operator operand line =>
      obtain ⟨_, _, _, rest⟩ := bind_eq_ok.mp evaluated
      obtain ⟨_, _, _, ⟨⟩⟩ := bind_eq_ok.mp rest
    | binary left operator right line =>
      obtain ⟨_, _, _, rest⟩ := bind_eq_ok.mp evaluated
      obtain ⟨_, _, _, last⟩ := bind_eq_ok.mp rest
      obtain ⟨_, _, _, ⟨⟩⟩ := bind_eq_ok.mp last
    | assign name value line =>
      obtain ⟨_, _, _, rest⟩ := bind_eq_ok.mp evaluated
      obtain ⟨_, _, _, ⟨⟩⟩ := bind_eq_ok.mp rest
    | call callee arguments line =>
      cases callee with
      | identifier name nameLine => exact ⟨name, nameLine, arguments, line, rfl⟩
      | _ => cases evaluated

private theorem accounts_value {tree : Expr}
    (failed : Stage.Fails sink ⟨steps, .value tree, machine⟩ error) :
    Stage.Accounts sink ⟨steps, .value tree, machine⟩ error := by
  rcases fails_bind.mp failed with inside | ⟨result, after, evaluated, missing⟩
  · exact .inr ⟨_, .result, inside⟩
  · cases result with
    | some value => exact absurd missing (fails_pure _)
    | none =>
      obtain ⟨name, nameLine, arguments, line, rfl⟩ := callee_of_none evaluated
      obtain rfl := fails_failAt.mp missing
      exact .inl (.noValue evaluated)

private theorem accounts_call {function : Function} {values : List Value}
    (failed : Stage.Fails sink ⟨steps, .call function values, machine⟩ error) :
    Stage.Accounts sink ⟨steps, .call function values, machine⟩ error := by
  by_cases enough : values.length = function.parameters.length
  · rcases (fails_callFunction enough).mp failed with
      unbound | ⟨bound, binds, inside | ⟨signal, ended, done, controls, rfl⟩⟩
    · obtain ⟨binding, reached, arrives, refused⟩ := fails_bindParameters.mp unbound
      obtain ⟨fault, taken, rfl⟩ := fails_define.mp refused
      exact .inl (.parameter enough arrives taken)
    · obtain ⟨statement, reached, arrives, inside⟩ := fails_sequence.mp inside
      exact .inr ⟨_, .body enough binds arrives, inside⟩
    · exact .inl (.escape enough binds done controls)
  · obtain rfl := (fails_callFunction_arity enough).mp failed
    exact .inl (.supply enough)

private theorem accounts_print {callee : Expr} {arguments : List Expr} {line : Nat} {name : String}
    (prints : Prints callee name)
    (placed : ∀ part, Comes sink ⟨steps + 1, .result (.call callee arguments line), machine⟩ part →
      ∀ error, part.Fails sink error → ∃ line, error.line = some line)
    (failed : Fails (locate line (printAll sink (evaluate sink steps) arguments)) machine error) :
    Stage.Accounts sink ⟨steps + 1, .result (.call callee arguments line), machine⟩ error := by
  obtain ⟨inner, unprinted, rfl⟩ := fails_locate.mp failed
  obtain ⟨argument, reached, arrives, refused⟩ := fails_printAll.mp unprinted
  rcases fails_bind.mp refused with inside | ⟨result, after, evaluated, refused⟩
  · have comes : Comes sink ⟨steps + 1, .result (.call callee arguments line), machine⟩
        ⟨steps, .result argument, reached⟩ := .printed prints arrives
    obtain ⟨own, placed⟩ := placed _ comes inner inside
    rw [withLine_of_line placed]
    exact .inr ⟨_, comes, inside⟩
  · cases result with
    | none => exact absurd refused (fails_pure _)
    | some value =>
      obtain ⟨some, reason, refusal, rfl⟩ := fails_emit.mp refused
      exact .inl (.print prints arrives evaluated some refusal)

private theorem accounts_finds {callee : Expr} {arguments : List Expr} {line : Nat} {name : String}
    {function : Function} (finds : Finds machine callee name function)
    (failed : Fails (call sink (evaluate sink steps) (execute sink steps) callee arguments line)
      machine error) :
    Stage.Accounts sink ⟨steps + 1, .result (.call callee arguments line), machine⟩ error := by
  by_cases enough : arguments.length = function.parameters.length
  · rcases (finds.fails_call enough).mp failed with failed | ⟨values, after, evaluated, failed⟩
    · obtain ⟨argument, reached, arrives, inside⟩ := fails_mapM.mp failed
      exact .inr ⟨_, .argument finds enough arrives, inside⟩
    · exact .inr ⟨_, .called finds enough evaluated, failed⟩
  · rw [Fails, finds.call_eq, if_pos enough] at failed
    obtain rfl := fails_failAt.mp failed
    exact .inl (.arity finds enough)

private theorem accounts_result {tree : Expr}
    (placed : ∀ part, Comes sink ⟨steps + 1, .result tree, machine⟩ part →
      ∀ error, part.Fails sink error → ∃ line, error.line = some line)
    (failed : Fails (evaluateOver sink (evaluate sink steps) (execute sink steps) tree) machine
      error) :
    Stage.Accounts sink ⟨steps + 1, .result tree, machine⟩ error := by
  cases tree with
  | literal value line => exact absurd failed (fails_pure _)
  | parenthesized inner line => exact .inr ⟨_, .parenthesized, fails_bind_pure.mp failed⟩
  | identifier name line =>
    obtain ⟨fault, unknown, rfl⟩ := fails_lookup.mp (fails_bind_pure.mp failed)
    exact .inl (.identifier unknown)
  | unary operator operand line =>
    rcases fails_bind.mp failed with inside | ⟨value, after, evaluated, rest⟩
    · exact .inr ⟨_, .operand, inside⟩
    · obtain ⟨fault, refused, rfl⟩ := fails_operator.mp (fails_bind_pure.mp rest)
      exact .inl (.unary evaluated refused)
  | binary left operator right line =>
    rcases fails_bind.mp failed with inside | ⟨first, middle, evaluated, rest⟩
    · exact .inr ⟨_, .left, inside⟩
    · rcases fails_bind.mp rest with inside | ⟨second, after, other, last⟩
      · exact .inr ⟨_, .right evaluated, inside⟩
      · obtain ⟨fault, refused, rfl⟩ := fails_operator.mp (fails_bind_pure.mp last)
        exact .inl (.binary evaluated other refused)
  | assign name value line =>
    rcases fails_bind.mp failed with inside | ⟨value, after, evaluated, rest⟩
    · exact .inr ⟨_, .assigned, inside⟩
    · obtain ⟨fault, unknown, rfl⟩ := fails_assign.mp (fails_bind_pure.mp rest)
      exact .inl (.assign evaluated unknown)
  | member object name line =>
    obtain rfl := fails_failAt.mp failed
    exact .inl .member
  | call callee arguments line =>
    rw [evaluateOver] at failed
    cases named : calleeName? callee with
    | none =>
      rw [call, named] at failed
      obtain rfl := fails_failAt.mp failed
      exact .inl (.unnamed named)
    | some name =>
      cases builtin : Builtin.ofName? name with
      | some known =>
        cases known
        have prints : Prints callee name := ⟨named, builtin⟩
        exact accounts_print prints placed (prints.fails_call.mp failed)
      | none =>
        have looked := failed
        simp only [call, named, builtin] at looked
        rcases fails_bind.mp looked with missing | ⟨function, after, located, _⟩
        · obtain ⟨fault, unknown, rfl⟩ := fails_lookupFunction.mp missing
          exact .inl (.unknown named builtin unknown)
        · have found := (lookupFunction_eq_ok.mp located).1
          exact accounts_finds ⟨named, builtin, found⟩ failed

private theorem accounts_statement {tree : Stmt}
    (failed : Fails (executeOver (evaluate sink steps) (execute sink steps) steps tree) machine
      error) :
    Stage.Accounts sink ⟨steps + 1, .statement tree, machine⟩ error := by
  cases tree with
  | block statements line =>
    obtain ⟨statement, reached, arrives, inside⟩ := fails_sequence.mp (fails_inScope.mp failed)
    exact .inr ⟨_, .statement arrives, inside⟩
  | evaluate expression line => exact .inr ⟨_, .evaluated, fails_bind_pure.mp failed⟩
  | declare name type initializer line =>
    rcases fails_bind.mp failed with unvalued | ⟨value, after, evaluated, rest⟩
    · obtain ⟨value, rfl, inside⟩ := fails_optionMapM.mp unvalued
      exact .inr ⟨_, .initial, inside⟩
    · obtain ⟨fault, taken, rfl⟩ := fails_define.mp (fails_bind_pure.mp rest)
      exact .inl (.declare evaluated taken)
  | returns value line =>
    obtain ⟨value, rfl, inside⟩ := fails_optionMapM.mp (fails_bind_pure.mp failed)
    exact .inr ⟨_, .returned, inside⟩
  | branch condition whenTrue whenFalse line =>
    rcases fails_bind.mp failed with inside | ⟨value, after, evaluated, failed⟩
    · exact .inr ⟨_, .condition, inside⟩
    · split at failed
      · rename_i holds
        exact .inr ⟨_, .whenTrue evaluated holds, failed⟩
      · rename_i fails
        cases whenFalse with
        | none => exact absurd failed (fails_pure _)
        | some other => exact .inr ⟨_, .whenFalse evaluated (by simpa using fails), failed⟩
  | loop condition body stepped line =>
    obtain ⟨reached, repeats, failed⟩ := fails_repeatWhile.mp failed
    rcases failed with failed | ⟨tested, holds, inside | ⟨ended, done, failed⟩⟩
    · exact .inr ⟨_, .test repeats, fails_bind_pure.mp failed⟩
    · exact .inr ⟨_, .round repeats holds, inside⟩
    · obtain ⟨step, kept, inside⟩ := fails_takeStep.mp failed
      exact .inr ⟨_, .step repeats holds done kept, inside⟩
  | leave line => exact absurd failed (fails_pure _)
  | proceed line => exact absurd failed (fails_pure _)
  | function name parameters result body bodyLine line =>
    obtain rfl := fails_failAt.mp failed
    exact .inl .nested

end

namespace Stage

/-- Stages get smaller as a run comes to others. -/
def size (stage : Stage) : Nat :=
  match stage.activity with
  | .value _ => 2 * stage.steps + 1
  | .call _ _ => 2 * stage.steps + 1
  | .result _ => 2 * stage.steps
  | .statement _ => 2 * stage.steps

end Stage

theorem Comes.size_lt (comes : Comes sink stage part) : part.size < stage.size := by
  cases comes <;> simp only [Stage.size] <;> omega

theorem Raised.line (raised : Raised sink stage error) : error.line = some stage.node.line := by
  cases raised <;> rfl

namespace Stage

/-- Every error of a stage arises at it or at one that it comes to, and has a line. -/
theorem accounts (failed : stage.Fails sink error) :
    stage.Accounts sink error ∧ ∃ line, error.line = some line := by
  induction size : stage.size using Nat.strongRecOn generalizing stage error with
  | _ size ih =>
    subst size
    -- Both are shown at once: `print` would give its own line to an error that has none.
    have placed : ∀ part, Comes sink stage part → ∀ error, part.Fails sink error →
        ∃ line, error.line = some line :=
      fun part comes error failed => (ih part.size comes.size_lt failed rfl).2
    have accounted : stage.Accounts sink error := by
      obtain ⟨steps, activity, machine⟩ := stage
      cases activity with
      | value tree => exact accounts_value failed
      | call function values => exact accounts_call failed
      | result tree =>
        cases steps with
        | zero => exact absurd failed fails_unfinished
        | succ steps => exact accounts_result placed (fails_result.mp failed)
      | statement tree =>
        cases steps with
        | zero => exact absurd failed fails_unfinished
        | succ steps => exact accounts_statement (fails_statement.mp failed)
    refine ⟨accounted, ?_⟩
    rcases accounted with raised | ⟨part, comes, inside⟩
    · exact ⟨_, raised.line⟩
    · exact placed part comes error inside

/-- Whatever stage it is at which an error arises, it is the error of all stages on the way. -/
theorem fails_of_reaches {inner : Stage} (reaches : Relation.ReflTransGen (Comes sink) stage inner)
    (failed : inner.Fails sink error) : stage.Fails sink error := by
  obtain ⟨line, placed⟩ := (accounts failed).2
  induction reaches using Relation.ReflTransGen.head_induction_on with
  | refl => exact failed
  | head comes _ ih => exact comes.fails ih placed

/-- A stage fails with the errors that arise at the stages to which it leads. -/
theorem fails_iff : stage.Fails sink error ↔
    ∃ inner, Relation.ReflTransGen (Comes sink) stage inner ∧ Raised sink inner error := by
  constructor
  · intro failed
    induction size : stage.size using Nat.strongRecOn generalizing stage with
    | _ size ih =>
      subst size
      rcases (accounts failed).1 with raised | ⟨part, comes, inside⟩
      · exact ⟨stage, .refl, raised⟩
      · obtain ⟨inner, reaches, raised⟩ := ih part.size comes.size_lt inside rfl
        exact ⟨inner, .head comes reaches, raised⟩
  · rintro ⟨inner, reaches, raised⟩
    exact fails_of_reaches reaches raised.fails

end Stage

end Scriptlet.Run
