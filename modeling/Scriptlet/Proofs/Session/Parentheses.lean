import Scriptlet.Proofs.Run.Parentheses
import Scriptlet.Proofs.Session.Steps

/-! Erasing parentheses. Any parentheses of a program may go, except around a callee and around a
call that is a whole expression statement or that is printed: nothing that can be observed
changes. There, the parentheses ask the call for a value. -/
namespace Scriptlet

open Run

namespace Expr

/-- What an expression is to the node around it. An expression that stands as a statement, or that
is printed, is a whole one: it need not have a value. -/
inductive Role where
  | operand
  | whole
  | callee
deriving DecidableEq

/-- Whether the parentheses around an expression may go. -/
def Role.erasable : Role → Expr → Bool
  | operand, _ => true
  | whole, inner => !inner.content.isCall
  | callee, _ => false

/-- Erasing some parentheses in an expression of the given role. All lines stay. -/
inductive Erases : Role → Expr → Expr → Prop where
  | literal {role : Role} {value : Value} {line : Nat} :
      Erases role (.literal value line) (.literal value line)
  | identifier {role : Role} {name : String} {line : Nat} :
      Erases role (.identifier name line) (.identifier name line)
  | unary {role : Role} {operator : UnaryOperator} {operand other : Expr} {line : Nat}
      (operands : Erases .operand operand other) :
      Erases role (.unary operator operand line) (.unary operator other line)
  | binary {role : Role} {left right first second : Expr} {operator : BinaryOperator} {line : Nat}
      (lefts : Erases .operand left first) (rights : Erases .operand right second) :
      Erases role (.binary left operator right line) (.binary first operator second line)
  | member {role : Role} {object other : Expr} {name : String} {line : Nat}
      (objects : Erases .operand object other) :
      Erases role (.member object name line) (.member other name line)
  | call {role : Role} {callee other : Expr} {arguments others : List Expr} {line : Nat}
      (noPrint : (calleeName? callee).bind Builtin.ofName? ≠ some .print)
      (callees : Erases .callee callee other)
      (each : List.Forall₂ (Erases .operand) arguments others) :
      Erases role (.call callee arguments line) (.call other others line)
  | print {role : Role} {callee other : Expr} {arguments others : List Expr} {line : Nat}
      (isPrint : (calleeName? callee).bind Builtin.ofName? = some .print)
      (callees : Erases .callee callee other)
      (each : List.Forall₂ (Erases .whole) arguments others) :
      Erases role (.call callee arguments line) (.call other others line)
  | assign {role : Role} {name : String} {value other : Expr} {line : Nat}
      (values : Erases .operand value other) :
      Erases role (.assign name value line) (.assign name other line)
  | kept {role : Role} {inner other : Expr} {line : Nat} (nested : Erases .operand inner other) :
      Erases role (.parenthesized inner line) (.parenthesized other line)
  | erased {role : Role} {inner other : Expr} {line : Nat} (may : role.erasable inner = true)
      (nested : Erases .operand inner other) : Erases role (.parenthesized inner line) other

end Expr

/-- Erasing some parentheses in a statement. -/
inductive Stmt.Erases : Stmt → Stmt → Prop where
  | block {statements others : List Stmt} {line : Nat}
      (each : List.Forall₂ Erases statements others) :
      Erases (.block statements line) (.block others line)
  | evaluate {expression other : Expr} {line : Nat} (nested : expression.Erases .whole other) :
      Erases (.evaluate expression line) (.evaluate other line)
  | declare {name : String} {type : DeclaredType} {value other : Option Expr} {line : Nat}
      (values : Option.Rel (Expr.Erases .operand) value other) :
      Erases (.declare name type value line) (.declare name type other line)
  | returns {value other : Option Expr} {line : Nat}
      (values : Option.Rel (Expr.Erases .operand) value other) :
      Erases (.returns value line) (.returns other line)
  | branch {condition test : Expr} {whenTrue first : Stmt} {whenFalse second : Option Stmt}
      {line : Nat} (conditions : condition.Erases .operand test) (firsts : Erases whenTrue first)
      (seconds : Option.Rel Erases whenFalse second) :
      Erases (.branch condition whenTrue whenFalse line) (.branch test first second line)
  | loop {condition test : Expr} {body other : Stmt} {stepped : Bool} {line : Nat}
      (conditions : condition.Erases .operand test) (bodies : Erases body other) :
      Erases (.loop condition body stepped line) (.loop test other stepped line)
  | leave {line : Nat} : Erases (.leave line) (.leave line)
  | proceed {line : Nat} : Erases (.proceed line) (.proceed line)
  | function {name : String} {parameters : List Parameter} {result : DeclaredType}
      {body others : List Stmt} {bodyLine line : Nat} (bodies : List.Forall₂ Erases body others) :
      Erases (.function name parameters result body bodyLine line)
        (.function name parameters result others bodyLine line)

def Program.Erases (program other : Program) : Prop :=
  List.Forall₂ Stmt.Erases program.declarations other.declarations

def Function.Erases (function other : Function) : Prop :=
  function.declaration.Erases other.declaration

/-- Sessions that have printed the same and bind the same names, to functions in which some
parentheses are erased. -/
structure Session.Erases (session other : Session) : Prop where
  globals : session.globals.Related Function.Erases other.globals
  consoles : session.console = other.console

theorem Expr.Erases.refl (role : Role) (expression : Expr) : expression.Erases role expression := by
  induction expression using Expr.induction generalizing role with
  | literal value line => exact .literal
  | identifier name line => exact .identifier
  | unary operator operand line ih => exact .unary (ih _)
  | binary left operator right line ih other => exact .binary (ih _) (other _)
  | member object name line ih => exact .member (ih _)
  | call callee arguments line ih each =>
    by_cases isPrint : (Run.calleeName? callee).bind Builtin.ofName? = some .print
    · refine .print isPrint (ih _) (List.forall₂_same.mpr fun argument member => ?_)
      exact each argument member _
    · refine .call isPrint (ih _) (List.forall₂_same.mpr fun argument member => ?_)
      exact each argument member _
  | parenthesized inner line ih => exact .kept (ih _)
  | assign name value line ih => exact .assign (ih _)

theorem Stmt.Erases.refl (statement : Stmt) : statement.Erases statement := by
  induction statement using Stmt.induction with
  | block statements line ih => exact .block (List.forall₂_same.mpr ih)
  | evaluate expression line => exact .evaluate (.refl _ _)
  | declare name type initializer line => exact .declare (optionRel_refl fun _ _ => .refl _ _)
  | returns value line => exact .returns (optionRel_refl fun _ _ => .refl _ _)
  | branch condition whenTrue whenFalse line ih others =>
    exact .branch (.refl _ _) ih (optionRel_refl others)
  | loop condition body stepped line ih => exact .loop (.refl _ _) ih
  | leave line => exact .leave
  | proceed line => exact .proceed
  | function name parameters result body bodyLine line ih =>
    exact .function (List.forall₂_same.mpr ih)

theorem Session.Erases.refl (session : Session) : session.Erases session :=
  ⟨⟨rfl, fun _ => optionRel_refl fun function _ => Stmt.Erases.refl function.declaration⟩, rfl⟩

namespace Expr

theorem Erases.calleeName? {callee other : Expr} (erases : callee.Erases .callee other) :
    calleeName? callee = calleeName? other := by
  cases erases with
  | erased may nested => cases may
  | _ => rfl

private theorem SameNode.isCall {first second : Expr} (nodes : first.SameNode second) :
    first.isCall = second.isCall := by
  cases nodes <;> rfl

/-- Where a call may have no value, it stands in parentheses before and after, or neither. -/
theorem Erases.isCall {first second : Expr} (erases : first.Erases .whole second)
    (same : first.SameInside second) : first.isCall = second.isCall := by
  obtain ⟨nodes⟩ := same
  cases erases with
  | erased may nested =>
    have noCall : second.content.isCall = false := by
      rw [← nodes.isCall]
      simpa [Role.erasable, content] using may
    cases isCall : second.isCall with
    | false => rfl
    | true =>
      rw [content_of_isCall isCall, isCall] at noCall
      cases noCall
  | _ => rfl

theorem Erases.sameInside (first : Expr) :
    ∀ role second, first.Erases role second → first.SameInside second := by
  induction first using Expr.induction with
  | literal value line =>
    rintro role second ⟨⟩
    exact .of .literal
  | identifier name line =>
    rintro role second ⟨⟩
    exact .of .identifier
  | unary operator operand line ih =>
    intro role second erases
    cases erases with
    | unary operands => exact .of (.unary (ih _ _ operands))
  | binary left operator right line ih others =>
    intro role second erases
    cases erases with
    | binary lefts rights => exact .of (.binary (ih _ _ lefts) (others _ _ rights))
  | member object name line =>
    rintro role second ⟨⟩
    exact .of .member
  | call callee arguments line _ ih =>
    intro role second erases
    cases erases with
    | call noPrint callees each =>
      refine .of (.call callees.calleeName? ?_ fun isPrint => absurd isPrint noPrint)
      exact forall₂_imp_mem each fun argument member other => ih argument member _ other
    | print isPrint callees each =>
      refine .of (.call callees.calleeName? ?_ fun _ => ?_)
      · exact forall₂_imp_mem each fun argument member other => ih argument member _ other
      · exact forall₂_imp_mem each fun argument member other erases =>
          erases.isCall (ih argument member _ other erases)
  | parenthesized inner line ih =>
    intro role second erases
    cases erases with
    | kept nested =>
      obtain ⟨nodes⟩ := ih _ _ nested
      exact .of nodes
    | erased may nested =>
      obtain ⟨nodes⟩ := ih _ _ nested
      exact .of nodes
  | assign name value line ih =>
    intro role second erases
    cases erases with
    | assign values => exact .of (.assign (ih _ _ values))

end Expr

theorem Stmt.Erases.sameInside (first : Stmt) :
    ∀ second, first.Erases second → first.SameInside second := by
  induction first using Stmt.induction with
  | block statements line ih =>
    intro second erases
    cases erases with
    | block each => exact .block (forall₂_imp_mem each ih)
  | evaluate expression line =>
    intro second erases
    cases erases with
    | evaluate nested =>
      have same := Expr.Erases.sameInside _ _ _ nested
      exact .evaluate same (nested.isCall same)
  | declare name type initializer line =>
    intro second erases
    cases erases with
    | declare values =>
      exact .declare (optionRel_imp_mem values fun _ _ => Expr.Erases.sameInside _ _)
  | returns value line =>
    intro second erases
    cases erases with
    | returns values =>
      exact .returns (optionRel_imp_mem values fun _ _ => Expr.Erases.sameInside _ _)
  | branch condition whenTrue whenFalse line ih others =>
    intro second erases
    cases erases with
    | branch conditions firsts seconds =>
      exact .branch (Expr.Erases.sameInside _ _ _ conditions) (ih _ firsts)
        (optionRel_imp_mem seconds others)
  | loop condition body stepped line ih =>
    intro second erases
    cases erases with
    | loop conditions bodies =>
      exact .loop (Expr.Erases.sameInside _ _ _ conditions) (ih _ bodies)
  | leave line =>
    rintro _ ⟨⟩
    exact .leave
  | proceed line =>
    rintro _ ⟨⟩
    exact .proceed
  | function name parameters result body bodyLine line ih =>
    intro second erases
    cases erases with
    | function bodies => exact .function (forall₂_imp_mem bodies ih)

theorem Function.Erases.sameInside {function other : Function} (erases : function.Erases other) :
    function.SameInside other := by
  have same := Stmt.Erases.sameInside _ _ erases
  obtain ⟨name, parameters, result, body, bodyLine, line⟩ := function
  obtain ⟨copy, others, copyResult, copyBody, copyBodyLine, copyLine⟩ := other
  cases same with
  | function bodies => exact ⟨rfl, rfl, rfl, bodies⟩

namespace Session

private theorem loadDeclarations_erases {declarations others : List Stmt}
    (each : List.Forall₂ Stmt.Erases declarations others) {scope other : Scope}
    (related : scope.Related Function.Erases other) :
    (loadDeclarations declarations scope).1 = (loadDeclarations others other).1 ∧
      (loadDeclarations declarations scope).2.Related Function.Erases
        (loadDeclarations others other).2 := by
  induction each generalizing scope other with
  | nil => exact ⟨rfl, related⟩
  | cons first _ ih =>
    cases first with
    | @function name parameters result body copies bodyLine line bodies =>
      have found := related.bound name
      simp only [loadDeclarations, Scope.defineFunction]
      generalize scope.function? name = left at found
      generalize other.function? name = right at found
      cases found with
      | some _ => exact ⟨rfl, related⟩
      | none =>
        refine ih ⟨related.slots, fun sought => ?_⟩
        simp only [Scope.function?, Scope.lookup_cons]
        split
        · exact .some (.function bodies)
        · exact related.bound sought
    | _ => exact ⟨rfl, related⟩

/-- How a run ends if it is allowed enough steps. -/
def Finishes (session : Session) (sink : Sink) (entry : String)
    (result : Except Interruption (Option Value)) (after : Session) : Prop :=
  result ≠ .error .unfinished ∧ ∃ steps, session.run sink steps entry = (result, after)

/-- A run over functions that differ in parentheses only gives the same result and prints the
same. -/
theorem Finishes.transfer {functions : Function → Function → Prop}
    (inside : ∀ {function other : Function}, functions function other → function.SameInside other)
    {session other after : Session} (globals : session.globals.Related functions other.globals)
    (consoles : session.console = other.console) {sink : Sink} {entry : String}
    {result : Except Interruption (Option Value)}
    (finishes : session.Finishes sink entry result after) :
    ∃ last, other.Finishes sink entry result last ∧
      after.globals.Related functions last.globals ∧ after.console = last.console := by
  obtain ⟨ended, steps, ran⟩ := finishes
  have found := globals.bound entry
  rw [run] at ran
  generalize foundHere : session.globals.function? entry = here at ran found
  generalize foundThere : other.globals.function? entry = there at found
  cases found with
  | none =>
    cases ran
    exact ⟨other, ⟨ended, 0, by rw [run, foundThere]⟩, globals, consoles⟩
  | @some function copy related =>
    have same := inside related
    have meets := Meets.upTo inside sink steps
    obtain ⟨outcome, matched, settles⟩ := meets.callFunction same [] function.line
      ⟨Chain.root session.globals, session.console⟩ ⟨Chain.root other.globals, other.console⟩
      ⟨.cons globals .nil, consoles⟩
    simp only at ran
    generalize callFunction _ function _ _ _ = reached at ran matched settles
    cases matched with
    | unfinished =>
      cases ran
      exact absurd rfl ended
    | @ok _ _ _ final values machines =>
      obtain rfl := values
      obtain ⟨enough, settled⟩ := settles (ok_ne_unfinished _ _)
      cases ran
      refine ⟨⟨final.chain.current, final.console⟩, ⟨ended, enough, ?_⟩, machines.chains.current,
        machines.consoles⟩
      rw [run, foundThere]
      simp only [← same.line, settled enough (Nat.le_refl _)]
    | @failed _ _ _ final errors machines =>
      obtain rfl := errors
      obtain ⟨enough, settled⟩ := settles (failed_ne_unfinished _ _)
      cases ran
      refine ⟨⟨final.chain.current, final.console⟩, ⟨ended, enough, ?_⟩, machines.chains.current,
        machines.consoles⟩
      rw [run, foundThere]
      simp only [← same.line, settled enough (Nat.le_refl _)]

/-- Parentheses are transparent. Sessions in which some are erased load programs in which some are
erased with the same result, and runs end in the same way, if they end, whatever takes up their
output. A call that stands as a statement or that is printed gives the same outcomes in
parentheses, except that it fails at its line where it has no value. -/
theorem parentheses_transparent :
    (∀ session : Session, session.Erases session) ∧
    (∀ session other : Session, session.Erases other →
      (∀ program copy : Program, program.Erases copy →
        (session.load program).1 = (other.load copy).1 ∧
          (session.load program).2.Erases (other.load copy).2) ∧
      ∀ sink entry,
        (∀ result after, session.Finishes sink entry result after →
          ∃ last, other.Finishes sink entry result last ∧ after.Erases last) ∧
        ∀ result last, other.Finishes sink entry result last →
          ∃ after, session.Finishes sink entry result after ∧ after.Erases last) ∧
    (∀ (wrapped callee : Expr) (arguments : List Expr) (line : Nat) (name : String),
      wrapped.content = .call callee arguments line → wrapped.isCall = false →
      calleeName? callee = some name → ∀ sink steps,
        (∀ place,
          execute sink (steps + 1) (.evaluate (.call callee arguments line) place) =
            onResult (evaluate sink steps (.call callee arguments line))
              (pure .normal) (fun _ => pure .normal) ∧
          execute sink (steps + wrapped.layers + 1) (.evaluate wrapped place) =
            onResult (evaluate sink steps (.call callee arguments line))
              (Exec.failAt line (.noValue name)) (fun _ => pure .normal)) ∧
        ∀ front back,
          printAll sink (evaluate sink steps) (front ++ .call callee arguments line :: back) =
            (do
              printAll sink (evaluate sink steps) front
              onResult (evaluate sink steps (.call callee arguments line))
                (pure ()) (fun value => Exec.emit sink value.text)
              printAll sink (evaluate sink steps) back) ∧
          printAll sink (evaluate sink (steps + wrapped.layers)) (front ++ wrapped :: back) =
            (do
              printAll sink (evaluate sink (steps + wrapped.layers)) front
              onResult (evaluate sink steps (.call callee arguments line))
                (Exec.failAt line (.noValue name)) (fun value => Exec.emit sink value.text)
              printAll sink (evaluate sink (steps + wrapped.layers)) back)) ∧
    (∀ (wrapped callee : Expr) (arguments : List Expr) (line : Nat),
      wrapped.content = .call callee arguments line → wrapped.isCall = false →
      calleeName? callee = none → ∀ sink steps,
        evaluate sink (steps + wrapped.layers) wrapped =
          evaluate sink steps (.call callee arguments line)) ∧
    ∀ name, (Cause.noValue name).message = "function '" ++ name ++ "' does not return a value" := by
  refine ⟨Erases.refl, ?_, ?_, ?_, fun _ => rfl⟩
  · intro session other erases
    refine ⟨fun program copy erased => ?_, fun sink entry => ⟨?_, ?_⟩⟩
    · obtain ⟨results, globals⟩ := loadDeclarations_erases erased erases.globals
      exact ⟨results, globals, erases.consoles⟩
    · intro result after finishes
      obtain ⟨last, ends, globals, consoles⟩ :=
        finishes.transfer Function.Erases.sameInside erases.globals erases.consoles
      exact ⟨last, ends, globals, consoles⟩
    · intro result last finishes
      obtain ⟨after, ends, globals, consoles⟩ := finishes.transfer
        (fun erased => (Function.Erases.sameInside erased).symm) erases.globals.flip
        erases.consoles.symm
      exact ⟨after, ends, globals.flip, consoles.symm⟩
  · intro wrapped callee arguments line name content noCall named sink steps
    have asks := evaluate_wrapped content noCall sink steps named
    refine ⟨fun place => ⟨?_, ?_⟩, fun front back => ⟨?_, ?_⟩⟩
    · exact (onResult_same _ _).symm
    · rw [execute, executeOver, asks, onResult_bind]
      rfl
    · rw [printAll_append, printAll, ← bind_printResult, bind_assoc]
    · rw [printAll_append, printAll, asks, onResult_bind]
      simp only [onResult_bind]
      rfl
  · intro wrapped callee arguments line content noCall unnamed sink steps
    exact evaluate_wrapped_unnamed content noCall sink steps unnamed

/-- A function that calls another one in an operand and prints the sum, with or without
parentheses around both. -/
def printingSum (wrap : Expr → Expr) : Program :=
  let one : Function := ⟨"one", [], ⟨"int", 0⟩, [.returns (some (.literal (.int 1) 1)) 1], 1, 1⟩
  let call : Expr := .call (.identifier "one" 3) [] 3
  let sum : Expr := wrap (.binary (wrap call) .add (.literal (.int 2) 3) 3)
  let main : Function := ⟨"main", [], ⟨"int", 0⟩,
    [.evaluate (.call (.identifier "print" 3) [sum] 3) 3, .returns (some (wrap call)) 4], 2, 2⟩
  ⟨[one.declaration, main.declaration]⟩

def wrapping : Session := (empty.load (printingSum (.parenthesized · 3))).2

def unwrapped : Session := (empty.load (printingSum id)).2

/-- The sum is printed and the call has its value without the parentheses too; a call that is a
statement has to have a value inside of them. -/
theorem unwrapped_finishes :
    (wrapping.run .accepting 9 "main").2.output = "3" ∧
      (∃ last, unwrapped.Finishes .accepting "main" (.ok (some (.int 1))) last ∧
        last.output = "3") ∧
      execute .accepting 3 (.evaluate (.parenthesized (.call (.identifier "one" 5) [] 5) 5) 5) =
        onResult (evaluate .accepting 1 (.call (.identifier "one" 5) [] 5))
          (Exec.failAt 5 (.noValue "one")) (fun _ => pure .normal) := by
  obtain ⟨same, alike, whole, _⟩ := parentheses_transparent
  have erased : (printingSum (.parenthesized · 3)).Erases (printingSum id) := by
    refine .cons (Stmt.Erases.refl _)
      (.cons (.function (.cons (.evaluate ?_) (.cons ?_ .nil))) .nil)
    · refine .print rfl (.refl _ _) (.cons (.erased rfl (.binary (.erased rfl ?_) ?_)) .nil)
      · exact .refl _ _
      · exact .refl _ _
    · exact .returns (.some (.erased rfl (.refl _ _)))
  have printed : (wrapping.run .accepting 9 "main").2.output = "3" := by decide +kernel
  refine ⟨printed, ?_, ?_⟩
  · have sessions : wrapping.Erases unwrapped := ((alike _ _ (same empty)).1 _ _ erased).2
    have ends : wrapping.Finishes .accepting "main" (.ok (some (.int 1)))
        (wrapping.run .accepting 9 "main").2 := ⟨nofun, 9, rfl⟩
    obtain ⟨last, finishes, after⟩ := ((alike _ _ sessions).2 .accepting "main").1 _ _ ends
    refine ⟨last, finishes, ?_⟩
    rw [← printed, output, output, after.consoles]
  · exact ((whole (.parenthesized (.call (.identifier "one" 5) [] 5) 5) _ _ _ "one" rfl rfl rfl
      .accepting 1).1 5).2

end Session

end Scriptlet
