import Scriptlet.Proofs.Program.Induction
import Scriptlet.Proofs.Session.Twins
import Scriptlet.Proofs.Surface.Renumber

/-! Declared types and lines have no influence on what a program does. Programs that differ in
nothing else are loaded up to the same declaration and run in step: they give the same values,
the same output and the same errors, of which only the lines may differ. -/
namespace Scriptlet

open Run

/-- What stands for a type that is left out. -/
def DeclaredType.blank : DeclaredType := ⟨"", 0⟩

def Parameter.withoutType (parameter : Parameter) : Parameter := ⟨parameter.name, .blank⟩

mutual

def Stmt.withoutTypes : Stmt → Stmt
  | .block statements line => .block (Stmt.allWithoutTypes statements) line
  | .evaluate expression line => .evaluate expression line
  | .declare name _ initializer line => .declare name .blank initializer line
  | .returns value line => .returns value line
  | .branch condition whenTrue none line => .branch condition whenTrue.withoutTypes none line
  | .branch condition whenTrue (some whenFalse) line =>
    .branch condition whenTrue.withoutTypes (some whenFalse.withoutTypes) line
  | .loop condition body stepped line => .loop condition body.withoutTypes stepped line
  | .leave line => .leave line
  | .proceed line => .proceed line
  | .function name parameters _ body bodyLine line =>
    .function name (parameters.map Parameter.withoutType) .blank (Stmt.allWithoutTypes body)
      bodyLine line

def Stmt.allWithoutTypes : List Stmt → List Stmt
  | [] => []
  | first :: rest => first.withoutTypes :: Stmt.allWithoutTypes rest

end

/-- A program up to declared types. -/
def Program.withoutTypes (program : Program) : Program :=
  ⟨Stmt.allWithoutTypes program.declarations⟩

namespace Stmt

private theorem allWithoutTypes_eq_map (statements : List Stmt) :
    allWithoutTypes statements = statements.map withoutTypes := by
  induction statements with
  | nil => rfl
  | cons first rest ih => rw [allWithoutTypes, ih, List.map_cons]

@[simp] theorem withoutTypes_branch (condition : Expr) (whenTrue : Stmt) (whenFalse : Option Stmt)
    (line : Nat) : (branch condition whenTrue whenFalse line).withoutTypes =
      branch condition whenTrue.withoutTypes (whenFalse.map withoutTypes) line := by
  cases whenFalse <;> rfl

@[simp] theorem mapLines_branch (change : Nat → Nat) (condition : Expr) (whenTrue : Stmt)
    (whenFalse : Option Stmt) (line : Nat) :
    (branch condition whenTrue whenFalse line).mapLines change =
      branch (condition.mapLines change) (whenTrue.mapLines change)
        (whenFalse.map (mapLines change)) (change line) := by
  cases whenFalse <;> rfl

@[simp] theorem withoutLines_branch (condition : Expr) (whenTrue : Stmt) (whenFalse : Option Stmt)
    (line : Nat) : (branch condition whenTrue whenFalse line).withoutLines =
      branch condition.withoutLines whenTrue.withoutLines (whenFalse.map withoutLines) 0 := by
  cases whenFalse <;> rfl

end Stmt

private theorem Expr.mapAllLines_eq_map (change : Nat → Nat) (expressions : List Expr) :
    Expr.mapAllLines change expressions = expressions.map (Expr.mapLines change) := by
  induction expressions with
  | nil => rfl
  | cons first rest ih => rw [Expr.mapAllLines, ih, List.map_cons]

private theorem Expr.withoutLines_eq (expression : Expr) :
    expression.withoutLines = expression.mapLines fun _ => 0 := by
  induction expression using Expr.induction with
  | call callee arguments line same each =>
    rw [Expr.withoutLines, Expr.mapLines, same, Expr.allWithoutLines_eq_map,
      Expr.mapAllLines_eq_map, List.map_congr_left each]
  | _ => simp only [Expr.withoutLines, Expr.mapLines, *]

private theorem Stmt.withoutLines_eq (statement : Stmt) :
    statement.withoutLines = statement.mapLines fun _ => 0 := by
  have expressions : Expr.withoutLines = Expr.mapLines fun _ => 0 := funext Expr.withoutLines_eq
  induction statement using Stmt.induction with
  | block statements line each =>
    rw [Stmt.withoutLines, Stmt.mapLines, Stmt.allWithoutLines_eq_map, Stmt.mapAllLines_eq_map,
      List.map_congr_left each]
  | function name parameters result body bodyLine line each =>
    rw [Stmt.withoutLines, Stmt.mapLines, Stmt.allWithoutLines_eq_map, Stmt.mapAllLines_eq_map,
      List.map_congr_left each]
  | branch condition whenTrue whenFalse line first second =>
    rw [Stmt.withoutLines_branch, Stmt.mapLines_branch, expressions, first,
      Option.map_congr second]
  | _ => simp only [Stmt.withoutLines, Stmt.mapLines, *]

/-- The same names, and lines that are the same once they are changed. -/
def Likeness.upToLines (change : Nat → Nat) (missing : Prop) : Likeness where
  sameVariable := Eq
  sameFunction := Eq
  sameLine line other := change line = change other
  missing := missing
  variable_iff same also := by rw [same, also]
  function_iff same also := by rw [same, also]
  builtin same := by rw [same]

section

variable {change : Nat → Nat} {missing : Prop}

private theorem rel_of_map_eq {α β : Type} {change : α → β} {related : α → α → Prop}
    {item other : Option α} (same : item.map change = other.map change)
    (each : ∀ present ∈ item, ∀ other, change present = change other → related present other) :
    Option.Rel related item other := by
  cases item with
  | none =>
    obtain rfl := Option.map_eq_none_iff.mp same.symm
    exact .none
  | some present =>
    obtain ⟨other, rfl, changed⟩ := Option.map_eq_some_iff.mp same.symm
    exact .some (each present rfl other changed.symm)

private theorem Expr.like_of_mapLines {expression twin : Expr}
    (same : expression.mapLines change = twin.mapLines change) :
    expression.Like (.upToLines change missing) twin := by
  induction expression using Expr.induction generalizing twin with
  | literal value line =>
    cases twin <;> simp only [mapLines, reduceCtorEq, literal.injEq] at same
    obtain ⟨rfl, lines⟩ := same
    exact .literal lines
  | identifier name line =>
    cases twin <;> simp only [mapLines, reduceCtorEq, identifier.injEq] at same
    exact .identifier same.1 same.2
  | unary operator operand line ih =>
    cases twin <;> simp only [mapLines, reduceCtorEq, unary.injEq] at same
    obtain ⟨rfl, operands, lines⟩ := same
    exact .unary (ih operands) lines
  | binary left operator right line ih other =>
    cases twin <;> simp only [mapLines, reduceCtorEq, binary.injEq] at same
    obtain ⟨lefts, rfl, rights, lines⟩ := same
    exact .binary (ih lefts) (other rights) lines
  | member object name line ih =>
    cases twin <;> simp only [mapLines, reduceCtorEq, member.injEq] at same
    obtain ⟨objects, rfl, lines⟩ := same
    exact .member (ih objects) lines
  | call callee arguments line ih each =>
    cases twin <;> simp only [mapLines, reduceCtorEq, call.injEq, mapAllLines_eq_map] at same
    obtain ⟨callees, listed, lines⟩ := same
    have arguments := forall₂_of_map_eq listed fun argument given other _ => each argument given
    cases callee with
    | identifier name nameLine =>
      rename_i twin _ _
      cases twin <;> simp only [mapLines, reduceCtorEq, identifier.injEq] at callees
      exact .named callees.1 arguments lines
    | _ => exact .unnamed (ih callees) rfl arguments lines
  | parenthesized inner line ih =>
    cases twin <;> simp only [mapLines, reduceCtorEq, parenthesized.injEq] at same
    exact .parenthesized (ih same.1) same.2
  | assign name value line ih =>
    cases twin <;> simp only [mapLines, reduceCtorEq, assign.injEq] at same
    exact .assign same.1 (ih same.2.1) same.2.2

private theorem Parameter.like_of_withoutType {parameters others : List Parameter}
    (same : parameters.map Parameter.withoutType = others.map Parameter.withoutType) :
    List.Forall₂ (Parameter.Like (.upToLines change missing)) parameters others := by
  refine forall₂_of_map_eq same fun parameter _ other _ equal => ?_
  exact (Parameter.mk.inj equal).1

private theorem Stmt.like_of_mapLines {statement twin : Stmt}
    (same : statement.withoutTypes.mapLines change = twin.withoutTypes.mapLines change) :
    statement.Like (.upToLines change missing) twin := by
  have values {value result : Option Expr}
      (equal : value.map (Expr.mapLines change) = result.map (Expr.mapLines change)) :
      Option.Rel (Expr.Like (.upToLines change missing)) value result :=
    rel_of_map_eq equal fun _ _ _ => Expr.like_of_mapLines
  have lists {statements others : List Stmt}
      (equal : mapAllLines change (allWithoutTypes statements) =
        mapAllLines change (allWithoutTypes others))
      (each : ∀ one ∈ statements, ∀ {twin : Stmt},
        one.withoutTypes.mapLines change = twin.withoutTypes.mapLines change →
          one.Like (.upToLines change missing) twin) :
      List.Forall₂ (Stmt.Like (.upToLines change missing)) statements others := by
    simp only [mapAllLines_eq_map, allWithoutTypes_eq_map, List.map_map] at equal
    exact forall₂_of_map_eq equal fun one member other _ => each one member
  induction statement using Stmt.induction generalizing twin with
  | block statements line each =>
    cases twin <;> simp only [withoutTypes, withoutTypes_branch, mapLines, mapLines_branch,
      reduceCtorEq, block.injEq] at same
    exact .block (lists same.1 each) same.2
  | evaluate expression line =>
    cases twin <;> simp only [withoutTypes, withoutTypes_branch, mapLines, mapLines_branch,
      reduceCtorEq, evaluate.injEq] at same
    exact .evaluate (Expr.like_of_mapLines same.1) same.2
  | declare name type initializer line =>
    cases twin <;> simp only [withoutTypes, withoutTypes_branch, mapLines, mapLines_branch,
      reduceCtorEq, declare.injEq] at same
    exact .declare same.1 (values same.2.2.1) same.2.2.2
  | returns value line =>
    cases twin <;> simp only [withoutTypes, withoutTypes_branch, mapLines, mapLines_branch,
      reduceCtorEq, returns.injEq] at same
    exact .returns (values same.1) same.2
  | branch condition whenTrue whenFalse line first second =>
    cases twin <;> simp only [withoutTypes, withoutTypes_branch, mapLines, mapLines_branch,
      reduceCtorEq, branch.injEq] at same
    obtain ⟨conditions, firsts, seconds, lines⟩ := same
    rw [Option.map_map, Option.map_map] at seconds
    exact .branch (Expr.like_of_mapLines conditions) (first firsts)
      (rel_of_map_eq seconds fun other present twin => second other present) lines
  | loop condition body stepped line ih =>
    cases twin <;> simp only [withoutTypes, withoutTypes_branch, mapLines, mapLines_branch,
      reduceCtorEq, loop.injEq] at same
    obtain ⟨conditions, bodies, rfl, lines⟩ := same
    exact .loop (Expr.like_of_mapLines conditions) (ih bodies) lines
  | leave line =>
    cases twin <;> simp only [withoutTypes, withoutTypes_branch, mapLines, mapLines_branch,
      reduceCtorEq, leave.injEq] at same
    exact .leave same
  | proceed line =>
    cases twin <;> simp only [withoutTypes, withoutTypes_branch, mapLines, mapLines_branch,
      reduceCtorEq, proceed.injEq] at same
    exact .proceed same
  | function name parameters result body bodyLine line each =>
    cases twin <;> simp only [withoutTypes, withoutTypes_branch, mapLines, mapLines_branch,
      reduceCtorEq, function.injEq] at same
    obtain ⟨names, named, _, bodies, _, lines⟩ := same
    exact .function names (Parameter.like_of_withoutType named) (lists bodies each) lines

/-- Every function is like itself. -/
theorem Function.like_self (function : Function) :
    function.Like (.upToLines change missing) function where
  names := rfl
  named := List.forall₂_same.mpr fun _ _ => rfl
  bodies := List.forall₂_same.mpr fun _ _ => Stmt.like_of_mapLines rfl
  lines := rfl

theorem SlotsLike.self (slots : List (String × Option Value)) :
    SlotsLike (.upToLines change missing) slots slots :=
  List.forall₂_same.mpr fun _ _ => ⟨rfl, rfl⟩

private theorem Scope.like_self (scope : Scope) : scope.Like (.upToLines change missing) scope := by
  refine ⟨.self _, ?_⟩
  intro name _ same
  obtain rfl : name = _ := same
  cases scope.function? name with
  | none => exact .absent
  | some function => exact .found function.like_self

private theorem ScopeFault.Like.eq {fault twin : ScopeFault}
    (faults : fault.Like (.upToLines change missing) twin) : fault = twin := by
  cases faults with
  | _ names => exact congrArg _ names

private theorem Run.Cause.Like.eq {cause twin : Cause}
    (causes : cause.Like (.upToLines change missing) twin) : cause = twin := by
  cases causes with
  | operator => rfl
  | scope faults => exact congrArg _ faults.eq
  | arity names => exact congrArg (Cause.arity · _ _) names
  | unnamedCallee => rfl
  | memberAccess => rfl
  | writeRefused => rfl
  | _ names => exact congrArg _ names

private theorem LoadFault.Like.eq {fault twin : LoadFault}
    (faults : fault.Like (.upToLines change missing) twin) : fault = twin := by
  cases faults with
  | notAFunction => rfl
  | scope faults => exact congrArg _ faults.eq

end

/-- An interruption without the line of its error. -/
def Run.Interruption.withoutLine : Interruption → Interruption
  | failed error => failed (.unplaced error.cause)
  | unfinished => unfinished

namespace Session

variable {change : Nat → Nat} {missing : Prop} {result twin : Except Interruption (Option Value)}

private theorem ResultLike.withoutLine
    (results : ResultLike (.upToLines change missing) result twin) :
    result.mapError Interruption.withoutLine = twin.mapError Interruption.withoutLine := by
  cases results with
  | ok => rfl
  | error reasons =>
    cases reasons with
    | unfinished => rfl
    | failed errors =>
      simp only [Except.mapError, Interruption.withoutLine, errors.causes.eq]

/-- Where lines are left as they are, like results are the same. -/
theorem ResultLike.eq (results : ResultLike (.upToLines id missing) result twin) :
    result = twin := by
  cases results with
  | ok => rfl
  | error reasons =>
    cases reasons with
    | unfinished => rfl
    | @failed error other errors =>
      obtain ⟨cause, line⟩ := error
      obtain ⟨reason, position⟩ := other
      obtain rfl : cause = reason := errors.causes.eq
      cases errors.lines with
      | none => rfl
      | some same =>
        obtain rfl : _ = _ := same
        rfl

/-- Programs that are the same up to types and changed lines are loaded alike. -/
theorem load_upToLines {first second : Program}
    (same : first.withoutTypes.declarations.map (Stmt.mapLines change) =
      second.withoutTypes.declarations.map (Stmt.mapLines change)) (session : Session) :
    LoadsLike (.upToLines change False) first.declarations second.declarations session.globals
        session.globals ∧
      (session.load first).2.Like (.upToLines change False) (session.load second).2 := by
  refine load_like id ?_ ⟨session.globals.like_self, rfl⟩
  simp only [Program.withoutTypes, Stmt.allWithoutTypes_eq_map, List.map_map] at same
  exact forall₂_of_map_eq same fun _ _ _ _ => Stmt.like_of_mapLines

theorem run_upToLines {first second : Session}
    (sessions : first.Like (.upToLines change False) second) (sink : Sink) (steps : Nat)
    (entry : String) :
    ResultLike (.upToLines change False) (first.run sink steps entry).1
        (second.run sink steps entry).1 ∧
      (first.run sink steps entry).2.console = (second.run sink steps entry).2.console := by
  rcases run_like sessions (rfl : entry = entry) sink steps with ⟨⟨⟩, _⟩ | ⟨results, after⟩
  exact ⟨results, after.consoles⟩

/-- Declared types and lines have no influence on what a program does. Of two programs that
differ in nothing else, both are loaded, or both are refused at the same declaration for the
same reason; runs give the same value, or fail for the same reason, and print the same. If the
lines are the same, so are those of all errors. -/
theorem annotations_unobserved {first second : Program}
    (same : first.withoutTypes.withoutLines = second.withoutTypes.withoutLines)
    (session : Session) :
    ((session.load first).1 = .ok () ∧ (session.load second).1 = .ok () ∨
      ∃ index fault line other,
        StopsAt first.declarations session.globals index ⟨fault, line⟩ ∧
        StopsAt second.declarations session.globals index ⟨fault, other⟩) ∧
    (∀ sink steps entry,
      ((session.load first).2.run sink steps entry).1.mapError Interruption.withoutLine =
        ((session.load second).2.run sink steps entry).1.mapError Interruption.withoutLine ∧
      ((session.load first).2.run sink steps entry).2.console =
        ((session.load second).2.run sink steps entry).2.console) ∧
    (first.withoutTypes = second.withoutTypes →
      (session.load first).1 = (session.load second).1 ∧
      ∀ sink steps entry, ((session.load first).2.run sink steps entry).1 =
        ((session.load second).2.run sink steps entry).1) := by
  have lineless : first.withoutTypes.declarations.map (Stmt.mapLines fun _ => 0) =
      second.withoutTypes.declarations.map (Stmt.mapLines fun _ => 0) := by
    simpa only [Program.withoutLines, Stmt.allWithoutLines_eq_map, Program.mk.injEq,
      funext Stmt.withoutLines_eq] using same
  obtain ⟨loads, sessions⟩ := load_upToLines lineless session
  refine ⟨?_, ?_, ?_⟩
  · cases loads with
    | loaded left right => exact .inl ⟨left, right⟩
    | @stopped index error copy left right errors =>
      obtain ⟨fault, line⟩ := error
      obtain ⟨reason, other⟩ := copy
      obtain rfl : fault = reason := errors.faults.eq
      exact .inr ⟨index, fault, line, other, left, right⟩
  · intro sink steps entry
    obtain ⟨results, consoles⟩ := run_upToLines sessions sink steps entry
    exact ⟨results.withoutLine, consoles⟩
  · intro typeless
    obtain ⟨loads, sessions⟩ :=
      load_upToLines (congrArg (·.declarations.map (Stmt.mapLines id)) typeless) session
    refine ⟨?_, fun sink steps entry => (run_upToLines sessions sink steps entry).1.eq⟩
    cases loads with
    | loaded left right => exact left.trans right.symm
    | @stopped index error copy left right errors =>
      have equal : error = copy := by
        obtain ⟨fault, line⟩ := error
        obtain ⟨reason, other⟩ := copy
        exact congrArg₂ LoadError.mk errors.faults.eq errors.lines
      exact left.refused.trans (equal ▸ right.refused.symm)

/-- A function with a type and a line that adds a truth value to a number. -/
def mistyped (type : DeclaredType) (line : Nat) : Program :=
  let sum : Expr := .binary (.literal (.int 1) line) .add (.literal (.bool true) line) line
  ⟨[Function.declaration ⟨"main", [], type, [.returns (some sum) line], line, line⟩]⟩

/-- With another type and another line, the function fails for the same reason. -/
theorem mistyped_unobserved :
    (mistyped ⟨"int", 0⟩ 1).withoutTypes.withoutLines =
      (mistyped ⟨"text", 2⟩ 5).withoutTypes.withoutLines ∧
    ((empty.load (mistyped ⟨"int", 0⟩ 1)).2.run .accepting 4 "main").1 =
      .error (.failed ⟨.operator (.operands .add .int .bool), some 1⟩) ∧
    ((empty.load (mistyped ⟨"text", 2⟩ 5)).2.run .accepting 4 "main").1.mapError
        Interruption.withoutLine =
      .error (.failed ⟨.operator (.operands .add .int .bool), none⟩) := by
  have same : (mistyped ⟨"int", 0⟩ 1).withoutTypes.withoutLines =
      (mistyped ⟨"text", 2⟩ 5).withoutTypes.withoutLines := rfl
  have fails : ((empty.load (mistyped ⟨"int", 0⟩ 1)).2.run .accepting 4 "main").1 =
      .error (.failed ⟨.operator (.operands .add .int .bool), some 1⟩) := rfl
  obtain ⟨_, runs, _⟩ := annotations_unobserved same empty
  refine ⟨same, fails, ?_⟩
  rw [← (runs .accepting 4 "main").1, fails]
  rfl

end Session

end Scriptlet
