import Scriptlet.Proofs.Program.Induction
import Scriptlet.Proofs.Run.Meeting

/-! Parentheses. Trees that differ in parentheses only have the same outcomes, provided that no
call gets or loses its parentheses where it may have no value, and that no callee does where its
name is looked at. Each of them may need more steps than the other. -/
namespace Scriptlet

open Run

namespace Expr

def isCall : Expr → Bool
  | call _ _ _ => true
  | _ => false

/-- What stands inside of all parentheses around an expression. -/
def content : Expr → Expr
  | parenthesized inner _ => inner.content
  | other => other

/-- How many pairs of parentheses stand around it. -/
def layers : Expr → Nat
  | parenthesized inner _ => inner.layers + 1
  | _ => 0

mutual

/-- Expressions that differ in parentheses only. -/
inductive SameInside : Expr → Expr → Prop where
  | of {first second : Expr} (nodes : SameNode first.content second.content) :
      SameInside first second

/-- Nodes whose parts differ in parentheses only. Callees have the same name or none, and what is
printed is a call in both or in neither. -/
inductive SameNode : Expr → Expr → Prop where
  | literal {value : Value} {line : Nat} : SameNode (.literal value line) (.literal value line)
  | identifier {name : String} {line : Nat} :
      SameNode (.identifier name line) (.identifier name line)
  | unary {operator : UnaryOperator} {operand other : Expr} {line : Nat}
      (operands : SameInside operand other) :
      SameNode (.unary operator operand line) (.unary operator other line)
  | binary {left right first second : Expr} {operator : BinaryOperator} {line : Nat}
      (lefts : SameInside left first) (rights : SameInside right second) :
      SameNode (.binary left operator right line) (.binary first operator second line)
  | member {object other : Expr} {name : String} {line : Nat} :
      SameNode (.member object name line) (.member other name line)
  | call {callee other : Expr} {arguments others : List Expr} {line : Nat}
      (names : calleeName? callee = calleeName? other)
      (each : List.Forall₂ SameInside arguments others)
      (printed : (calleeName? callee).bind Builtin.ofName? = some .print →
        List.Forall₂ (fun argument twin => argument.isCall = twin.isCall) arguments others) :
      SameNode (.call callee arguments line) (.call other others line)
  | assign {name : String} {value other : Expr} {line : Nat} (values : SameInside value other) :
      SameNode (.assign name value line) (.assign name other line)

end

theorem content_of_isCall {expression : Expr} (isCall : expression.isCall = true) :
    expression.content = expression := by
  cases expression with
  | call callee arguments line => rfl
  | _ => cases isCall

theorem SameInside.turn {first second : Expr}
    (turned : ∀ node, SameNode first.content node → SameNode node first.content)
    (same : first.SameInside second) : second.SameInside first := by
  obtain ⟨nodes⟩ := same
  exact .of (turned _ nodes)

theorem SameNode.symm (first : Expr) :
    ∀ node, SameNode first.content node → SameNode node first.content := by
  induction first using Expr.induction with
  | literal value line =>
    rintro _ ⟨⟩
    exact .literal
  | identifier name line =>
    rintro _ ⟨⟩
    exact .identifier
  | unary operator operand line ih =>
    intro node nodes
    cases nodes with
    | unary operands => exact .unary (operands.turn ih)
  | binary left operator right line ih other =>
    intro node nodes
    cases nodes with
    | binary lefts rights => exact .binary (lefts.turn ih) (rights.turn other)
  | member object name line =>
    rintro _ ⟨⟩
    exact .member
  | call callee arguments line _ ih =>
    intro node nodes
    cases nodes with
    | call names each printed =>
      refine .call names.symm ?_ fun isPrint => ?_
      · exact (forall₂_imp_mem each fun argument member _ =>
          SameInside.turn (ih argument member)).flip
      · exact ((printed (names ▸ isPrint)).imp fun _ _ calls => calls.symm).flip
  | parenthesized inner line ih => exact ih
  | assign name value line ih =>
    intro node nodes
    cases nodes with
    | assign values => exact .assign (values.turn ih)

theorem SameInside.symm {first second : Expr} (same : first.SameInside second) :
    second.SameInside first :=
  same.turn (SameNode.symm first)

end Expr

inductive Stmt.SameInside : Stmt → Stmt → Prop where
  | block {statements others : List Stmt} {line : Nat}
      (each : List.Forall₂ SameInside statements others) :
      SameInside (.block statements line) (.block others line)
  | evaluate {expression other : Expr} {line : Nat} (nested : expression.SameInside other)
      (calls : expression.isCall = other.isCall) :
      SameInside (.evaluate expression line) (.evaluate other line)
  | declare {name : String} {type : DeclaredType} {value other : Option Expr} {line : Nat}
      (values : Option.Rel Expr.SameInside value other) :
      SameInside (.declare name type value line) (.declare name type other line)
  | returns {value other : Option Expr} {line : Nat}
      (values : Option.Rel Expr.SameInside value other) :
      SameInside (.returns value line) (.returns other line)
  | branch {condition test : Expr} {whenTrue first : Stmt} {whenFalse second : Option Stmt}
      {line : Nat} (conditions : condition.SameInside test) (firsts : SameInside whenTrue first)
      (seconds : Option.Rel SameInside whenFalse second) :
      SameInside (.branch condition whenTrue whenFalse line) (.branch test first second line)
  | loop {condition test : Expr} {body other : Stmt} {stepped : Bool} {line : Nat}
      (conditions : condition.SameInside test) (bodies : SameInside body other) :
      SameInside (.loop condition body stepped line) (.loop test other stepped line)
  | leave {line : Nat} : SameInside (.leave line) (.leave line)
  | proceed {line : Nat} : SameInside (.proceed line) (.proceed line)
  | function {name : String} {parameters : List Parameter} {result : DeclaredType}
      {body others : List Stmt} {bodyLine line : Nat}
      (bodies : List.Forall₂ SameInside body others) :
      SameInside (.function name parameters result body bodyLine line)
        (.function name parameters result others bodyLine line)

structure Function.SameInside (function other : Function) : Prop where
  name : function.name = other.name
  parameters : function.parameters = other.parameters
  line : function.line = other.line
  bodies : List.Forall₂ Stmt.SameInside function.body other.body

theorem Stmt.SameInside.symm (first : Stmt) :
    ∀ second, first.SameInside second → second.SameInside first := by
  induction first using Stmt.induction with
  | block statements line ih =>
    intro second same
    cases same with
    | block each => exact .block (forall₂_imp_mem each ih).flip
  | evaluate expression line =>
    intro second same
    cases same with
    | evaluate nested calls => exact .evaluate nested.symm calls.symm
  | declare name type initializer line =>
    intro second same
    cases same with
    | declare values =>
      exact .declare (optionRel_flip (optionRel_imp_mem values fun _ _ _ same => same.symm))
  | returns value line =>
    intro second same
    cases same with
    | returns values =>
      exact .returns (optionRel_flip (optionRel_imp_mem values fun _ _ _ same => same.symm))
  | branch condition whenTrue whenFalse line ih others =>
    intro second same
    cases same with
    | branch conditions firsts seconds =>
      exact .branch conditions.symm (ih _ firsts)
        (optionRel_flip (optionRel_imp_mem seconds others))
  | loop condition body stepped line ih =>
    intro second same
    cases same with
    | loop conditions bodies => exact .loop conditions.symm (ih _ bodies)
  | leave line =>
    rintro _ ⟨⟩
    exact .leave
  | proceed line =>
    rintro _ ⟨⟩
    exact .proceed
  | function name parameters result body bodyLine line ih =>
    intro second same
    cases same with
    | function bodies => exact .function (forall₂_imp_mem bodies ih).flip

theorem Function.SameInside.symm {function other : Function} (same : function.SameInside other) :
    other.SameInside function :=
  ⟨same.name.symm, same.parameters.symm, same.line.symm,
    (same.bodies.imp fun _ _ => Stmt.SameInside.symm _ _).flip⟩

theorem Stmt.SameInside.increment? {body other : Stmt} (bodies : body.SameInside other)
    (stepped : Bool) :
    Option.Rel Stmt.SameInside (increment? stepped body) (increment? stepped other) := by
  cases stepped with
  | false => exact .none
  | true =>
    cases bodies with
    | @block statements others line each =>
      have backwards := List.forall₂_reverse_iff.mpr each
      simp only [Run.increment?, List.getLast?_eq_head?_reverse]
      generalize statements.reverse = first at backwards
      generalize others.reverse = second at backwards
      cases backwards with
      | nil => exact .none
      | cons last _ => exact .some last
    | _ => exact .none

namespace Run

private theorem valueOf_parenthesized (sink : Sink) (steps : Nat) (inner : Expr) (line : Nat) :
    valueOf (evaluate sink (steps + 1)) (.parenthesized inner line) =
      valueOf (evaluate sink steps) inner := by
  simp only [valueOf, evaluate, evaluateOver, bind_assoc, pure_bind, bind_pure]

/-- The value of an expression is that of its content, in one step less for each pair of
parentheses. -/
theorem valueOf_layers (sink : Sink) (steps : Nat) (expression : Expr) :
    valueOf (evaluate sink (steps + expression.layers)) expression =
      valueOf (evaluate sink steps) expression.content := by
  fun_induction Expr.content expression with
  | case1 inner line ih =>
    rw [Expr.layers, ← Nat.add_assoc, valueOf_parenthesized]
    exact ih
  | case2 other noParentheses =>
    cases other with
    | parenthesized inner line => exact absurd rfl (noParentheses inner line)
    | _ => rfl

/-- Only a call may have no value. -/
theorem evaluate_eq_valueOf (sink : Sink) (steps : Nat) {expression : Expr}
    (noCall : expression.isCall = false) :
    evaluate sink steps expression =
      valueOf (evaluate sink steps) expression >>= fun value => pure (some value) := by
  cases steps with
  | zero => rfl
  | succ steps =>
    cases expression with
    | call callee arguments line => cases noCall
    | member object name line => rfl
    | _ => simp only [valueOf, evaluate, evaluateOver, bind_assoc, pure_bind]

/-- Act on the result of a call, with a value or without one. -/
def onResult {α : Type} (call : Exec (Option Value)) (missing : Exec α) (given : Value → Exec α) :
    Exec α := do
  match ← call with
  | some value => given value
  | none => missing

theorem onResult_bind {α β : Type} (call : Exec (Option Value)) (missing : Exec α)
    (given : Value → Exec α) (next : α → Exec β) :
    onResult call missing given >>= next =
      onResult call (missing >>= next) fun value => given value >>= next := by
  rw [onResult, bind_assoc]
  congr 1
  funext result
  cases result <;> rfl

theorem onResult_same {α : Type} (call : Exec (Option Value)) (next : Exec α) :
    onResult call next (fun _ => next) = call >>= fun _ => next := by
  rw [onResult]
  congr 1
  funext result
  cases result <;> rfl

section Wrapped

variable {wrapped callee : Expr} {arguments : List Expr} {line : Nat}
  (content : wrapped.content = .call callee arguments line) (noCall : wrapped.isCall = false)
  (sink : Sink) (steps : Nat)

include content noCall in
/-- Parentheses ask a call for a value. -/
theorem evaluate_wrapped {name : String} (named : calleeName? callee = some name) :
    evaluate sink (steps + wrapped.layers) wrapped =
      onResult (evaluate sink steps (.call callee arguments line))
        (Exec.failAt line (.noValue name)) fun value => pure (some value) := by
  rw [evaluate_eq_valueOf sink _ noCall, valueOf_layers, content]
  cases callee <;> cases named
  exact onResult_bind _ _ pure _

include content noCall in
/-- A call of something without a name fails in parentheses like it does outside of them. -/
theorem evaluate_wrapped_unnamed (unnamed : calleeName? callee = none) :
    evaluate sink (steps + wrapped.layers) wrapped =
      evaluate sink steps (.call callee arguments line) := by
  rw [evaluate_eq_valueOf sink _ noCall, valueOf_layers, content]
  cases steps with
  | zero => rfl
  | succ steps =>
    simp only [valueOf, evaluate, evaluateOver, call, unnamed]
    rfl

theorem printAll_append (evaluate : Expr → Exec (Option Value)) (front back : List Expr) :
    printAll sink evaluate (front ++ back) =
      printAll sink evaluate front >>= fun _ => printAll sink evaluate back := by
  induction front with
  | nil => rfl
  | cons first rest ih => simp only [List.cons_append, printAll, ih, bind_assoc]

theorem bind_printResult (call : Exec (Option Value)) :
    call >>= printResult sink =
      onResult call (pure ()) fun value => Exec.emit sink value.text :=
  rfl

end Wrapped

/-- Evaluations and executions that are met wherever trees differ in parentheses only. A call that
may have no value stands in parentheses in both trees or in neither. -/
structure Meets (functions : Function → Function → Prop) (evaluate : Expr → Exec (Option Value))
    (execute : Stmt → Exec Signal) (evaluates : Nat → Expr → Exec (Option Value))
    (executes : Nat → Stmt → Exec Signal) : Prop where
  values {first second : Expr} : first.SameInside second →
    MetBy functions Eq (valueOf evaluate first) fun steps => valueOf (evaluates steps) second
  results {first second : Expr} : first.SameInside second → first.isCall = second.isCall →
    MetBy functions Eq (evaluate first) fun steps => evaluates steps second
  signals {first second : Stmt} : first.SameInside second →
    MetBy functions Eq (execute first) fun steps => executes steps second

namespace Meets

variable {functions : Function → Function → Prop}
  (inside : ∀ {function other : Function}, functions function other → function.SameInside other)
  {evaluate : Expr → Exec (Option Value)} {execute : Stmt → Exec Signal}
  {evaluates : Nat → Expr → Exec (Option Value)} {executes : Nat → Stmt → Exec Signal}
  (meets : Meets functions evaluate execute evaluates executes)

include meets in
theorem sequence {statements others : List Stmt}
    (each : List.Forall₂ Stmt.SameInside statements others) :
    MetBy functions Eq (Run.sequence execute statements) fun steps =>
      Run.sequence (executes steps) others := by
  induction each with
  | nil => exact .pure rfl
  | cons first _ ih =>
    refine (meets.signals first).bindSame fun signal => ?_
    cases signal with
    | normal => exact ih
    | _ => exact .pure rfl

theorem bindParameters (line : Nat) (bindings : List (Parameter × Value)) :
    MetBy functions Eq (Run.bindParameters line bindings) fun _ =>
      Run.bindParameters line bindings := by
  induction bindings with
  | nil => exact .pure rfl
  | cons first rest ih => exact (MetBy.define _ _).locate.bindSame fun _ => ih

include meets in
theorem callFunction {function other : Function} (same : function.SameInside other)
    (values : List Value) (line : Nat) :
    MetBy functions Eq (Run.callFunction execute function values line) fun steps =>
      Run.callFunction (executes steps) other values line := by
  simp only [Run.callFunction, same.name, same.parameters, same.line]
  split
  · exact .failAt
  · have bodies := (meets.sequence same.bodies).inScope
    refine ((bindParameters _ _).bindSame fun _ => bodies).inScope.bindSame fun signal => ?_
    cases signal with
    | normal => exact .pure rfl
    | returned value => exact .pure rfl
    | left => exact .failAt
    | proceeded => exact .failAt

include meets in
theorem printAll (sink : Sink) {arguments others : List Expr}
    (each : List.Forall₂ Expr.SameInside arguments others)
    (calls : List.Forall₂ (fun argument twin => argument.isCall = twin.isCall) arguments others) :
    MetBy functions Eq (Run.printAll sink evaluate arguments) fun steps =>
      Run.printAll sink (evaluates steps) others := by
  induction each with
  | nil => exact .pure rfl
  | cons first _ ih =>
    obtain ⟨call, calls⟩ := List.forall₂_cons.mp calls
    refine (meets.results first call).bindSame fun result => ?_
    have printed :
        MetBy functions Eq (printResult sink result) fun _ => printResult sink result := by
      cases result with
      | some value => exact .emit sink value.text
      | none => exact .pure rfl
    exact printed.bindSame fun _ => ih calls

include inside meets in
theorem call (sink : Sink) {callee other : Expr} {arguments others : List Expr}
    (names : calleeName? callee = calleeName? other)
    (each : List.Forall₂ Expr.SameInside arguments others)
    (printed : (calleeName? callee).bind Builtin.ofName? = some .print →
      List.Forall₂ (fun argument twin => argument.isCall = twin.isCall) arguments others)
    (line : Nat) :
    MetBy functions Eq (Run.call sink evaluate execute callee arguments line) fun steps =>
      Run.call sink (evaluates steps) (executes steps) other others line := by
  simp only [Run.call, ← names, ← each.length_eq]
  cases named : calleeName? callee with
  | none => exact .failAt
  | some name =>
    simp only
    cases builtin : Builtin.ofName? name with
    | some known =>
      cases known
      have calls := printed (by rw [named]; exact builtin)
      exact (meets.printAll sink each calls).locate.bindSame fun _ => .pure rfl
    | none =>
      refine (MetBy.lookupFunction name).locate.bind fun function copy related => ?_
      have same := inside related
      rw [← same.parameters]
      split
      · exact .failAt
      · refine (MetBy.mapM each fun _ _ => meets.values).bindSame fun values => ?_
        exact meets.callFunction same values line

include inside meets in
theorem node (sink : Sink) {first second : Expr} (nodes : first.SameNode second) :
    MetBy functions Eq (evaluateOver sink evaluate execute first) fun steps =>
      evaluateOver sink (evaluates steps) (executes steps) second := by
  cases nodes with
  | literal => exact .pure rfl
  | identifier => exact (MetBy.lookup _).locate.bindSame fun _ => .pure rfl
  | unary operands =>
    refine (meets.values operands).bindSame fun value => ?_
    exact (MetBy.operator _).locate.bindSame fun _ => .pure rfl
  | binary lefts rights =>
    refine (meets.values lefts).bindSame fun first => ?_
    refine (meets.values rights).bindSame fun second => ?_
    exact (MetBy.operator _).locate.bindSame fun _ => .pure rfl
  | member => exact .failAt
  | call names each printed => exact meets.call inside sink names each printed _
  | assign values =>
    refine (meets.values values).bindSame fun result => ?_
    exact (MetBy.assign _ result).locate.bindSame fun _ => .pure rfl

include meets in
theorem takeStep {increment other : Option Stmt}
    (steps : Option.Rel Stmt.SameInside increment other) :
    MetBy functions Eq (Run.takeStep execute increment) fun count =>
      Run.takeStep (executes count) other := by
  cases steps with
  | none => exact .pure rfl
  | some same => exact (meets.signals same).bindSame fun _ => .pure rfl

include meets in
theorem executeOver (rounds : Nat) {first second : Stmt} (same : first.SameInside second) :
    MetBy functions Eq (Run.executeOver evaluate execute rounds first) fun steps =>
      Run.executeOver (evaluates steps) (executes steps) steps second := by
  cases same with
  | block each => exact (meets.sequence each).inScope
  | evaluate nested calls => exact (meets.results nested calls).bindSame fun _ => .pure rfl
  | declare values =>
    refine (MetBy.optionMapM values fun _ _ => meets.values).bindSame fun value => ?_
    exact (MetBy.define _ value).locate.bindSame fun _ => .pure rfl
  | returns values =>
    exact (MetBy.optionMapM values fun _ _ => meets.values).bindSame fun _ => .pure rfl
  | branch conditions firsts seconds =>
    refine (meets.values conditions).bindSame fun value => ?_
    split
    · exact meets.signals firsts
    · cases seconds with
      | none => exact .pure rfl
      | some others => exact meets.signals others
  | loop conditions bodies =>
    exact .repeatWhile ((meets.values conditions).bindSame fun _ => .pure rfl)
      (meets.signals bodies) (meets.takeStep (bodies.increment? _)) rounds 0
  | leave => exact .pure rfl
  | proceed => exact .pure rfl
  | function bodies => exact .failAt

/-- Parentheses around an expression cost steps and change nothing else. -/
theorem valueOf_content {action : Exec Value} {sink : Sink} (expression : Expr)
    (met : MetBy functions Eq action fun steps =>
      valueOf (Run.evaluate sink steps) expression.content) :
    MetBy functions Eq action fun steps => valueOf (Run.evaluate sink steps) expression := by
  fun_induction Expr.content expression with
  | case1 inner line ih =>
    refine .later ?_
    simp only [valueOf_parenthesized]
    exact ih met
  | case2 other noParentheses => exact met

include inside in
/-- One step more, at a node that stands in no parentheses. -/
theorem evaluate_node {sink : Sink} {steps : Nat}
    (meets : Meets functions (Run.evaluate sink steps) (Run.execute sink steps)
      (Run.evaluate sink) (Run.execute sink))
    {first second : Expr} (nodes : first.SameNode second) :
    MetBy functions Eq (Run.evaluate sink (steps + 1) first) fun more =>
      Run.evaluate sink more second := by
  refine .later ?_
  simp only [Run.evaluate]
  exact meets.node inside sink nodes

/-- Where there is no value, both nodes fail in the same way. -/
theorem valueOf_node {first second : Expr} (nodes : first.SameNode second)
    (met : MetBy functions Eq (evaluate first) fun steps => evaluates steps second) :
    MetBy functions Eq (valueOf evaluate first) fun steps => valueOf (evaluates steps) second := by
  refine met.bindSame fun result => ?_
  cases result with
  | some value => exact .pure rfl
  | none =>
    cases nodes with
    | @call callee other _ _ _ names each printed =>
      cases callee <;> cases other <;> cases names <;> exact .failAt
    | _ => exact .failAt

include inside in
theorem upTo (sink : Sink) (steps : Nat) :
    Meets functions (Run.evaluate sink steps) (Run.execute sink steps) (Run.evaluate sink)
      (Run.execute sink) := by
  induction steps with
  | zero => exact ⟨fun _ => .unfinished, fun _ _ => .unfinished, fun _ => .unfinished⟩
  | succ steps ih =>
    have values {first second : Expr} (same : first.SameInside second) :
        MetBy functions Eq (valueOf (Run.evaluate sink (steps + 1)) first) fun more =>
          valueOf (Run.evaluate sink more) second := by
      obtain ⟨nodes⟩ := same
      cases first with
      | parenthesized inner line =>
        rw [valueOf_parenthesized]
        exact ih.values (.of nodes)
      | _ => exact valueOf_content second (valueOf_node nodes (ih.evaluate_node inside nodes))
    refine ⟨values, fun {first second} same calls => ?_, fun same => ?_⟩
    · cases isCall : first.isCall with
      | false =>
        simp only [evaluate_eq_valueOf sink _ isCall, evaluate_eq_valueOf sink _ (calls ▸ isCall)]
        exact (values same).bindSame fun _ => .pure rfl
      | true =>
        obtain ⟨nodes⟩ := same
        rw [Expr.content_of_isCall isCall, Expr.content_of_isCall (calls ▸ isCall)] at nodes
        exact ih.evaluate_node inside nodes
    · refine .later ?_
      simp only [Run.execute]
      exact ih.executeOver steps same

end Meets

end Run

end Scriptlet
