import Scriptlet.Proofs.Run.Meeting
import Scriptlet.Proofs.Run.Nodes
import Scriptlet.Proofs.Run.Scoping

/-! Actions that come to an end. The scopes that are entered during a run bind no functions, so a
call finds what the global scope binds. Evaluating an expression then ends if the functions that
it calls end, and so does executing a statement in which there is no loop. -/
namespace Scriptlet

/-- What the scopes of a chain bind to a name is what the global scope binds to it. -/
def Chain.Offers (globals : Scope) (chain : Chain) : Prop :=
  ∀ scope ∈ chain.scopes, ∀ name, ∀ function ∈ scope.function? name,
    globals.function? name = some function

namespace Chain.Offers

variable {globals : Scope} {chain changed : Chain}

theorem root (globals : Scope) : (Chain.root globals).Offers globals := by
  intro scope member name function found
  obtain rfl := List.mem_singleton.mp member
  exact found

theorem push (offers : chain.Offers globals) : chain.push.Offers globals := by
  refine List.forall_mem_cons.mpr ⟨?_, offers⟩
  intro name function found
  cases found

theorem pop (offers : chain.Offers globals) : chain.pop.Offers globals := by
  obtain ⟨current, outer⟩ := chain
  cases outer with
  | nil => exact offers
  | cons next outer => exact (List.forall_mem_cons.mp offers).2

/-- Only the functions of the scopes matter. -/
theorem of_keeps {declared : Set String} (offers : chain.Offers globals)
    (keeps : chain.Keeps declared changed) : changed.Offers globals := by
  obtain ⟨same, others⟩ := keeps
  obtain ⟨here, behind⟩ := List.forall_mem_cons.mp offers
  refine List.forall_mem_cons.mpr ⟨?_, ?_⟩
  · simpa only [Scope.function?, same.functions] using here
  · generalize chain.outer = before, changed.outer = after at others behind
    induction others with
    | nil => exact behind
    | cons first _ ih =>
      obtain ⟨head, tail⟩ := List.forall_mem_cons.mp behind
      refine List.forall_mem_cons.mpr ⟨?_, ih tail⟩
      simpa only [Scope.function?, first.functions] using head

theorem lookupFunction {name : String} {function : Function} (offers : chain.Offers globals)
    (success : chain.lookupFunction name = .ok function) :
    globals.function? name = some function := by
  rw [Chain.lookupFunction] at success
  split at success
  · cases success
  · rename_i found
    cases success
    obtain ⟨scope, member, found⟩ := List.exists_of_findSome?_eq_some found
    exact offers scope member name function found

end Chain.Offers

namespace Run

/-- Outcomes of actions that have come to an end. Behind a success the same functions are found. -/
inductive Outcome.Ended (globals : Scope) {α : Type} : Outcome α → Prop where
  | ok {value : α} {after : Machine} (offers : after.chain.Offers globals) :
      Ended globals (.ok value after)
  | failed {error : Error} {after : Machine} : Ended globals (.error (.failed error) after)

/-- From some number of steps on, the run comes to one and the same end. -/
def Halts (globals : Scope) {α : Type} (run : Nat → Exec α) : Prop :=
  ∀ machine : Machine, machine.chain.Offers globals →
    ∃ outcome, Settles run machine outcome ∧ Outcome.Ended globals outcome

namespace Halts

variable {globals : Scope} {α β : Type} {run : Nat → Exec α}

/-- An action that does not look at the number of steps. -/
theorem always {action : Exec α} (ended : ∀ machine : Machine, machine.chain.Offers globals →
    Outcome.Ended globals (action machine)) : Halts globals fun _ => action :=
  fun machine offers => ⟨action machine, ⟨0, fun _ _ => rfl⟩, ended machine offers⟩

theorem pure (value : α) : Halts globals fun _ => (Pure.pure value : Exec α) :=
  always fun _ offers => .ok offers

theorem failAt (line : Nat) (cause : Cause) :
    Halts globals fun _ => (Exec.failAt line cause : Exec α) :=
  always fun _ _ => .failed

theorem bind {follow : Nat → α → Exec β} (first : Halts globals run)
    (rest : ∀ value, Halts globals fun steps => follow steps value) :
    Halts globals fun steps => run steps >>= follow steps := by
  intro machine offers
  obtain ⟨outcome, ⟨enough, settled⟩, ended⟩ := first machine offers
  simp only [Settles, bind_apply]
  cases ended with
  | @ok value middle kept =>
    obtain ⟨final, ⟨later, follows⟩, settling⟩ := rest value middle kept
    refine ⟨final, ⟨max enough later, fun steps more => ?_⟩, settling⟩
    rw [settled steps (Nat.le_trans (Nat.le_max_left ..) more)]
    exact follows steps (Nat.le_trans (Nat.le_max_right ..) more)
  | @failed error after =>
    refine ⟨.error (.failed error) after, ⟨enough, fun steps more => ?_⟩, .failed⟩
    rw [settled steps more]

/-- A run may need one step more. -/
theorem later (halts : Halts globals fun steps => run (steps + 1)) : Halts globals run := by
  intro machine offers
  obtain ⟨outcome, ⟨enough, settled⟩, ended⟩ := halts machine offers
  refine ⟨outcome, ⟨enough + 1, fun steps more => ?_⟩, ended⟩
  obtain ⟨fewer, rfl⟩ : ∃ fewer, steps = fewer + 1 := ⟨steps - 1, by omega⟩
  exact settled fewer (Nat.le_of_succ_le_succ more)

theorem locate {line : Nat} (halts : Halts globals run) :
    Halts globals fun steps => Exec.locate line (run steps) := by
  intro machine offers
  obtain ⟨outcome, ⟨enough, settled⟩, ended⟩ := halts machine offers
  simp only [Settles, Exec.locate, EStateM.adaptExcept]
  cases ended with
  | @ok value after kept =>
    refine ⟨.ok value after, ⟨enough, fun steps more => ?_⟩, .ok kept⟩
    rw [settled steps more]
  | @failed error after =>
    refine ⟨.error (.failed (error.withLine line)) after, ⟨enough, fun steps more => ?_⟩, .failed⟩
    rw [settled steps more]
    rfl

theorem inScope (inside : Halts globals run) :
    Halts globals fun steps => Exec.inScope (run steps) := by
  intro machine offers
  obtain ⟨outcome, ⟨enough, settled⟩, ended⟩ :=
    inside { machine with chain := machine.chain.push } offers.push
  simp only [Settles, Exec.inScope]
  cases ended with
  | @ok value after kept =>
    refine ⟨.ok value { after with chain := after.chain.pop }, ⟨enough, fun steps more => ?_⟩,
      .ok kept.pop⟩
    rw [settled steps more]
  | @failed error after =>
    refine ⟨.error (.failed error) { after with chain := after.chain.pop },
      ⟨enough, fun steps more => ?_⟩, .failed⟩
    rw [settled steps more]

theorem mapM {item : Type} {act : Nat → item → Exec α} (items : List item)
    (each : ∀ one ∈ items, Halts globals fun steps => act steps one) :
    Halts globals fun steps => items.mapM (act steps) := by
  induction items with
  | nil => exact .pure []
  | cons first rest ih =>
    obtain ⟨head, tail⟩ := List.forall_mem_cons.mp each
    simp only [List.mapM_cons]
    exact head.bind fun _ => (ih tail).bind fun _ => .pure _

theorem optionMapM {item : Type} {act : Nat → item → Exec α} (one : Option item)
    (each : ∀ present ∈ one, Halts globals fun steps => act steps present) :
    Halts globals fun steps => one.mapM (act steps) := by
  cases one with
  | none => exact .pure none
  | some present => exact (each present rfl).bind fun _ => .pure _

theorem operator (result : Except OperatorFault α) :
    Halts globals fun _ => Exec.operator result := by
  cases result with
  | ok value => exact .pure value
  | error fault => exact always fun _ _ => .failed

theorem lookup (name : String) : Halts globals fun _ => Exec.lookup name := by
  refine always fun machine offers => ?_
  change Outcome.Ended globals (Exec.scope (machine.chain.lookup name) machine)
  cases machine.chain.lookup name with
  | ok value => exact .ok offers
  | error fault => exact .failed

/-- What is done with a function that is found may rely on the global scope. -/
theorem lookupFunction {name : String} {line : Nat} {follow : Nat → Function → Exec α}
    (each : ∀ function ∈ globals.function? name, Halts globals fun steps => follow steps function) :
    Halts globals fun steps =>
      Exec.locate line (Exec.lookupFunction name) >>= follow steps := by
  intro machine offers
  have looked : Exec.lookupFunction name machine =
      Exec.scope (machine.chain.lookupFunction name) machine := rfl
  simp only [Settles, bind_apply, Exec.locate, EStateM.adaptExcept, looked]
  cases found : machine.chain.lookupFunction name with
  | ok function => exact each function (offers.lookupFunction found) machine offers
  | error fault => exact ⟨_, ⟨0, fun _ _ => rfl⟩, .failed⟩

theorem change {action : Exec Unit} {change : Chain → Except ScopeFault Chain}
    {declared : Set String}
    (apply : ∀ machine, action machine =
      match change machine.chain with
      | .ok chain => .ok () { machine with chain }
      | .error fault => .error (.failed (.unplaced (.scope fault))) machine)
    (keeps : ∀ {chain changed}, change chain = .ok changed → chain.Keeps declared changed) :
    Halts globals fun _ => action := by
  refine always fun machine offers => ?_
  rw [apply]
  cases success : change machine.chain with
  | ok changed => exact .ok (offers.of_keeps (keeps success))
  | error fault => exact .failed

theorem assign (name : String) (value : Value) : Halts globals fun _ => Exec.assign name value :=
  change (Correspondence.assign_apply name value) Chain.keeps_assign

theorem define (name : String) (value : Option Value) :
    Halts globals fun _ => Exec.define name value :=
  change (Correspondence.define_apply name value) Chain.keeps_defineVariable

theorem emit (sink : Sink) (text : String) : Halts globals fun _ => Exec.emit sink text := by
  refine always fun machine offers => ?_
  rw [Exec.emit]
  split
  · exact .ok offers
  · rw [Correspondence.offer_apply]
    split
    · exact .ok offers
    · exact .failed

section

variable {evaluate : Nat → Expr → Exec (Option Value)} {execute : Nat → Stmt → Exec Signal}

theorem valueOf {expression : Expr} (halts : Halts globals fun steps => evaluate steps expression) :
    Halts globals fun steps => Run.valueOf (evaluate steps) expression := by
  refine halts.bind fun result => ?_
  cases result with
  | some value => exact .pure value
  | none =>
    simp only
    split <;> exact .failAt _ _

theorem sequence (statements : List Stmt)
    (each : ∀ statement ∈ statements, Halts globals fun steps => execute steps statement) :
    Halts globals fun steps => Run.sequence (execute steps) statements := by
  induction statements with
  | nil => exact .pure Signal.normal
  | cons first rest ih =>
    obtain ⟨head, tail⟩ := List.forall_mem_cons.mp each
    refine head.bind fun signal => ?_
    cases signal with
    | normal => exact ih tail
    | _ => exact .pure _

theorem bindParameters (line : Nat) (bindings : List (Parameter × Value)) :
    Halts globals fun _ => Run.bindParameters line bindings := by
  induction bindings with
  | nil => exact .pure ()
  | cons first rest ih => exact (define first.1.name (some first.2)).locate.bind fun _ => ih

theorem callFunction {function : Function}
    (body : ∀ statement ∈ function.body, Halts globals fun steps => execute steps statement)
    (values : List Value) (line : Nat) :
    Halts globals fun steps => Run.callFunction (execute steps) function values line := by
  simp only [Run.callFunction]
  split
  · exact .failAt _ _
  · have inside := (bindParameters function.line (function.parameters.zip values)).bind
      fun _ => (sequence function.body body).inScope
    refine inside.inScope.bind fun signal => ?_
    cases signal with
    | normal => exact .pure none
    | returned value => exact .pure value
    | left => exact .failAt _ _
    | proceeded => exact .failAt _ _

theorem printAll (sink : Sink) (arguments : List Expr)
    (each : ∀ argument ∈ arguments, Halts globals fun steps => evaluate steps argument) :
    Halts globals fun steps => Run.printAll sink (evaluate steps) arguments := by
  induction arguments with
  | nil => exact .pure ()
  | cons first rest ih =>
    obtain ⟨head, tail⟩ := List.forall_mem_cons.mp each
    refine head.bind fun result => ?_
    have printed : Halts globals fun _ => printResult sink result := by
      cases result with
      | none => exact .pure ()
      | some value => exact emit sink value.text
    exact printed.bind fun _ => ih tail

/-- A call halts if its arguments do and what the global scope binds to its name does. -/
theorem call (sink : Sink) {callee : Expr} {arguments : List Expr} (line : Nat)
    (each : ∀ argument ∈ arguments, Halts globals fun steps => evaluate steps argument)
    (called : ∀ name ∈ calleeName? callee, Builtin.ofName? name = none →
      ∀ function ∈ globals.function? name, ∀ statement ∈ function.body,
        Halts globals fun steps => execute steps statement) :
    Halts globals fun steps =>
      Run.call sink (evaluate steps) (execute steps) callee arguments line := by
  simp only [Run.call]
  cases named : calleeName? callee with
  | none => exact .failAt _ _
  | some name =>
    simp only
    cases builtin : Builtin.ofName? name with
    | some known =>
      cases known with
      | print => exact (printAll sink arguments each).locate.bind fun _ => .pure none
    | none =>
      refine lookupFunction fun function found => ?_
      split
      · exact .failAt _ _
      · refine (mapM arguments fun argument present => (each argument present).valueOf).bind
          fun values => ?_
        exact callFunction (called name named builtin function found) values line

end

end Halts

end Run

/-- The name that a call has for its function. -/
def Node.callee? : Node → Option String
  | expression (.call callee _ _) => Run.calleeName? callee
  | _ => none

/-- No loop stands in a function. -/
def Function.Loopless (function : Function) : Prop :=
  ∀ condition body stepped line,
    ¬ Node.Within (.statement (.loop condition body stepped line)) (.function function)

namespace Run

variable {globals : Scope} {sink : Sink} {whole : Function}
  (called : ∀ node : Node, node.Within (.function whole) → ∀ name ∈ node.callee?,
    Builtin.ofName? name = none → ∀ function ∈ globals.function? name,
      ∀ statement ∈ function.body, Halts globals fun steps => execute sink steps statement)

private theorem halts_evaluate {expression : Expr}
    (rule : Halts globals fun steps =>
      evaluateOver sink (evaluate sink steps) (execute sink steps) expression) :
    Halts globals fun steps => evaluate sink steps expression := by
  apply Halts.later
  simpa only [evaluate] using rule

private theorem halts_execute {statement : Stmt}
    (rule : Halts globals fun steps =>
      executeOver (evaluate sink steps) (execute sink steps) steps statement) :
    Halts globals fun steps => execute sink steps statement := by
  apply Halts.later
  simpa only [execute] using rule

include called in
/-- Expressions of a function halt if all that it calls does. -/
theorem expression_halts (expression : Expr)
    (within : Node.Within (.expression expression) (.function whole)) :
    Halts globals fun steps => evaluate sink steps expression := by
  apply halts_evaluate
  induction expression using Expr.induction with
  | literal value line => exact .pure _
  | identifier name line => exact (Halts.lookup name).locate.bind fun _ => .pure _
  | unary operator operand line ih =>
    have inner := halts_evaluate (ih (within.tail (List.mem_cons_self ..)))
    exact inner.valueOf.bind fun _ => (Halts.operator _).locate.bind fun _ => .pure _
  | binary left operator right line first second =>
    have left := halts_evaluate (first (within.tail (List.mem_cons_self ..)))
    have right := halts_evaluate
      (second (within.tail (List.mem_cons_of_mem _ (List.mem_cons_self ..))))
    refine left.valueOf.bind fun _ => right.valueOf.bind fun _ => ?_
    exact (Halts.operator _).locate.bind fun _ => .pure _
  | member object name line ih => exact .failAt _ _
  | call callee arguments line _ ih =>
    refine .call sink line (fun argument present => ?_) (called _ within)
    exact halts_evaluate (ih argument present
      (within.tail (List.mem_cons_of_mem _ (List.mem_map_of_mem present))))
  | parenthesized inner line ih =>
    have inside := halts_evaluate (ih (within.tail (List.mem_cons_self ..)))
    exact inside.valueOf.bind fun _ => .pure _
  | assign name value line ih =>
    have inner := halts_evaluate (ih (within.tail (List.mem_cons_self ..)))
    exact inner.valueOf.bind fun _ => (Halts.assign _ _).locate.bind fun _ => .pure _

include called in
/-- So do its statements, if there is no loop. -/
theorem statement_halts (loopless : whole.Loopless) (statement : Stmt)
    (within : Node.Within (.statement statement) (.function whole)) :
    Halts globals fun steps => execute sink steps statement := by
  have evaluated {expression : Expr}
      (inside : Node.Within (.expression expression) (.function whole)) :=
    expression_halts called expression inside
  apply halts_execute
  induction statement using Stmt.induction with
  | block statements line ih =>
    refine (Halts.sequence statements fun statement present => ?_).inScope
    exact halts_execute (ih statement present (within.tail (List.mem_map_of_mem present)))
  | evaluate expression line =>
    exact (evaluated (within.tail (List.mem_cons_self ..))).bind fun _ => .pure _
  | declare name type initializer line =>
    refine (Halts.optionMapM initializer fun value present => ?_).bind fun value => ?_
    · exact (evaluated (within.tail
        (List.mem_map_of_mem (Option.mem_toList.mpr present)))).valueOf
    · exact (Halts.define name value).locate.bind fun _ => .pure _
  | returns value line =>
    refine (Halts.optionMapM value fun given present => ?_).bind fun _ => .pure _
    exact (evaluated (within.tail (List.mem_map_of_mem (Option.mem_toList.mpr present)))).valueOf
  | branch condition whenTrue whenFalse line first second =>
    refine (evaluated (within.tail (List.mem_cons_self ..))).valueOf.bind fun value => ?_
    split
    · exact halts_execute
        (first (within.tail (List.mem_cons_of_mem _ (List.mem_cons_self ..))))
    · cases whenFalse with
      | none => exact .pure _
      | some other =>
        exact halts_execute (second other rfl (within.tail (by simp [Node.parts])))
  | loop condition body stepped line ih =>
    exact absurd within (loopless condition body stepped line)
  | leave line => exact .pure _
  | proceed line => exact .pure _
  | function name parameters result body bodyLine line ih => exact .failAt _ _

end Run

end Scriptlet
