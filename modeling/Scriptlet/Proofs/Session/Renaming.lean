import Scriptlet.Proofs.Program.Induction
import Scriptlet.Proofs.Session.Twins

/-! Renaming the variables and the functions of a program. Names are told apart and nothing
else is done with them, the builtin excepted; so a renamed program does what the program does,
and its errors are those of the program with the names in them renamed. -/
namespace Scriptlet

open Run

/-- New names for variables and, independently of them, for functions. Different names stay
different, and `print` is the new name of `print` alone. -/
structure Renaming where
  onVariables : String → String
  onFunctions : String → String
  variables_injective : Function.Injective onVariables
  functions_injective : Function.Injective onFunctions
  print_iff (name : String) : onFunctions name = "print" ↔ name = "print"

section

variable (labels : Renaming)

mutual

/-- Rename the identifiers of an expression: as functions where they are called, and as
variables everywhere else. The names of members are left as they are. -/
def Expr.rename : Expr → Expr
  | .literal value line => .literal value line
  | .identifier name line => .identifier (labels.onVariables name) line
  | .unary operator operand line => .unary operator operand.rename line
  | .binary left operator right line => .binary left.rename operator right.rename line
  | .member object name line => .member object.rename name line
  | .call (.identifier name nameLine) arguments line =>
    .call (.identifier (labels.onFunctions name) nameLine) (Expr.renameAll arguments) line
  | .call callee arguments line => .call callee.rename (Expr.renameAll arguments) line
  | .parenthesized inner line => .parenthesized inner.rename line
  | .assign name value line => .assign (labels.onVariables name) value.rename line

def Expr.renameAll : List Expr → List Expr
  | [] => []
  | first :: rest => first.rename :: Expr.renameAll rest

end

def Parameter.rename (parameter : Parameter) : Parameter :=
  { parameter with name := labels.onVariables parameter.name }

mutual

def Stmt.rename : Stmt → Stmt
  | .block statements line => .block (Stmt.renameAll statements) line
  | .evaluate expression line => .evaluate (expression.rename labels) line
  | .declare name type initializer line =>
    .declare (labels.onVariables name) type (initializer.map (Expr.rename labels)) line
  | .returns value line => .returns (value.map (Expr.rename labels)) line
  | .branch condition whenTrue none line =>
    .branch (condition.rename labels) whenTrue.rename none line
  | .branch condition whenTrue (some whenFalse) line =>
    .branch (condition.rename labels) whenTrue.rename (some whenFalse.rename) line
  | .loop condition body stepped line =>
    .loop (condition.rename labels) body.rename stepped line
  | .leave line => .leave line
  | .proceed line => .proceed line
  | .function name parameters result body bodyLine line =>
    .function (labels.onFunctions name) (parameters.map (Parameter.rename labels)) result
      (Stmt.renameAll body) bodyLine line

def Stmt.renameAll : List Stmt → List Stmt
  | [] => []
  | first :: rest => first.rename :: Stmt.renameAll rest

end

def Program.rename (program : Program) : Program := ⟨Stmt.renameAll labels program.declarations⟩

def ScopeFault.rename : ScopeFault → ScopeFault
  | variableDefined name => variableDefined (labels.onVariables name)
  | functionDefined name => functionDefined (labels.onFunctions name)
  | undefinedVariable name => undefinedVariable (labels.onVariables name)
  | unassignedVariable name => unassignedVariable (labels.onVariables name)
  | undefinedFunction name => undefinedFunction (labels.onFunctions name)

def Run.Cause.rename : Cause → Cause
  | operator fault => operator fault
  | scope fault => scope (fault.rename labels)
  | arity function expected given => arity (labels.onFunctions function) expected given
  | noValue function => noValue (labels.onFunctions function)
  | unnamedCallee => unnamedCallee
  | memberAccess name => memberAccess name
  | nestedFunction name => nestedFunction (labels.onFunctions name)
  | escapedLoopControl function => escapedLoopControl (labels.onFunctions function)
  | writeRefused reason => writeRefused reason

/-- The line of an error stays as it is. -/
def Run.Interruption.rename : Interruption → Interruption
  | failed error => failed { error with cause := error.cause.rename labels }
  | unfinished => unfinished

def LoadFault.rename : LoadFault → LoadFault
  | notAFunction => notAFunction
  | scope fault => scope (fault.rename labels)

def LoadError.rename (error : LoadError) : LoadError :=
  { error with fault := error.fault.rename labels }

end

private theorem Run.Builtin.ofName?_eq (name : String) :
    ofName? name = if name = "print" then some .print else none := by
  unfold ofName?
  split
  · rfl
  · rename_i other
    rw [if_neg other]

namespace Renaming

variable {labels : Renaming}

/-- Names stand for their new names, and lines for themselves. -/
def likeness (labels : Renaming) : Likeness where
  sameVariable name twin := labels.onVariables name = twin
  sameFunction name twin := labels.onFunctions name = twin
  sameLine := Eq
  missing := False
  variable_iff := by
    intro first second twin other same also
    rw [← same, ← also]
    exact labels.variables_injective.eq_iff.symm
  function_iff := by
    intro first second twin other same also
    rw [← same, ← also]
    exact labels.functions_injective.eq_iff.symm
  builtin := by
    intro name twin same
    rw [Builtin.ofName?_eq, Builtin.ofName?_eq, ← same]
    simp only [labels.print_iff]

theorem renameAll_eq_map (expressions : List Expr) :
    Expr.renameAll labels expressions = expressions.map (Expr.rename labels) := by
  induction expressions with
  | nil => rfl
  | cons first rest ih => rw [Expr.renameAll, ih, List.map_cons]

theorem renameStatements_eq_map (statements : List Stmt) :
    Stmt.renameAll labels statements = statements.map (Stmt.rename labels) := by
  induction statements with
  | nil => rfl
  | cons first rest ih => rw [Stmt.renameAll, ih, List.map_cons]

theorem forall₂_map {α : Type} {related : α → α → Prop} {change : α → α} {items : List α}
    (each : ∀ item ∈ items, related item (change item)) :
    List.Forall₂ related items (items.map change) :=
  List.forall₂_map_right_iff.mpr (List.forall₂_same.mpr each)

theorem like_rename (expression : Expr) :
    expression.Like labels.likeness (expression.rename labels) := by
  induction expression using Expr.induction with
  | literal value line => exact .literal rfl
  | identifier name line => exact .identifier rfl rfl
  | unary operator operand line ih => exact .unary ih rfl
  | binary left operator right line ih other => exact .binary ih other rfl
  | member object name line ih => exact .member ih rfl
  | call callee arguments line ih each =>
    have arguments := forall₂_map each
    rw [← renameAll_eq_map] at arguments
    cases callee with
    | identifier name nameLine => exact .named rfl arguments rfl
    | _ => exact .unnamed ih rfl arguments rfl
  | parenthesized inner line ih => exact .parenthesized ih rfl
  | assign name value line ih => exact .assign rfl ih rfl

theorem rel_rename (value : Option Expr) :
    Option.Rel (Expr.Like labels.likeness) value (value.map (Expr.rename labels)) := by
  cases value with
  | none => exact .none
  | some expression => exact .some (like_rename expression)

theorem like_renameStatement (statement : Stmt) :
    statement.Like labels.likeness (statement.rename labels) := by
  induction statement using Stmt.induction with
  | block statements line each =>
    rw [Stmt.rename, renameStatements_eq_map]
    exact .block (forall₂_map each) rfl
  | evaluate expression line => exact .evaluate (like_rename expression) rfl
  | declare name type initializer line => exact .declare rfl (rel_rename initializer) rfl
  | returns value line => exact .returns (rel_rename value) rfl
  | branch condition whenTrue whenFalse line first second =>
    cases whenFalse with
    | none => exact .branch (like_rename condition) first .none rfl
    | some other => exact .branch (like_rename condition) first (.some (second other rfl)) rfl
  | loop condition body stepped line ih => exact .loop (like_rename condition) ih rfl
  | leave line => exact .leave rfl
  | proceed line => exact .proceed rfl
  | function name parameters result body bodyLine line each =>
    rw [Stmt.rename, renameStatements_eq_map]
    exact .function rfl (forall₂_map fun _ _ => rfl) (forall₂_map each) rfl

theorem scopeFault_eq {fault twin : ScopeFault} (faults : fault.Like labels.likeness twin) :
    twin = fault.rename labels := by
  cases faults with
  | _ names =>
    rw [← (names : _ = _)]
    rfl

theorem cause_eq {cause twin : Cause} (causes : cause.Like labels.likeness twin) :
    twin = cause.rename labels := by
  cases causes with
  | operator => rfl
  | scope faults => exact congrArg Cause.scope (scopeFault_eq faults)
  | unnamedCallee => rfl
  | memberAccess => rfl
  | writeRefused => rfl
  | _ names =>
    rw [← (names : _ = _)]
    rfl

theorem interruption_eq {reason twin : Interruption}
    (reasons : reason.Like labels.likeness twin) : twin = reason.rename labels := by
  cases reasons with
  | unfinished => rfl
  | @failed error other errors =>
    obtain ⟨cause, line⟩ := error
    obtain ⟨_, position⟩ := other
    obtain rfl := cause_eq errors.causes
    obtain rfl : line = position := by
      cases errors.lines with
      | none => rfl
      | some same => exact congrArg some same
    rfl

theorem loadError_eq {error twin : LoadError} (errors : error.Like labels.likeness twin) :
    twin = error.rename labels := by
  obtain ⟨fault, line⟩ := error
  obtain ⟨reason, other⟩ := twin
  obtain ⟨faults, rfl⟩ := errors
  cases faults with
  | notAFunction => rfl
  | scope faults => rw [scopeFault_eq faults]; rfl

end Renaming

namespace Session

/-- A renamed program is loaded if the program is, and refused at the same line if it is not.
Its runs give the same values and print the same, or fail at the same lines with the same errors,
in which the names are renamed. -/
theorem run_rename (labels : Renaming) (program : Program) :
    (empty.load (program.rename labels)).1 =
      (empty.load program).1.mapError (LoadError.rename labels) ∧
    ∀ sink steps entry,
      ((empty.load (program.rename labels)).2.run sink steps (labels.onFunctions entry)).1 =
        ((empty.load program).2.run sink steps entry).1.mapError (Interruption.rename labels) ∧
      ((empty.load (program.rename labels)).2.run sink steps
          (labels.onFunctions entry)).2.console =
        ((empty.load program).2.run sink steps entry).2.console := by
  have each : List.Forall₂ (Stmt.Like labels.likeness) program.declarations
      (program.rename labels).declarations := by
    rw [Program.rename, Renaming.renameStatements_eq_map]
    exact Renaming.forall₂_map fun _ _ => Renaming.like_renameStatement _
  have unloaded : empty.Like labels.likeness empty := ⟨⟨.nil, fun _ => .absent⟩, rfl⟩
  obtain ⟨loads, sessions⟩ := load_like id each unloaded
  constructor
  · cases loads with
    | loaded left right => exact right.trans (congrArg (Except.mapError _) left.symm)
    | stopped left right errors =>
      obtain rfl := Renaming.loadError_eq errors
      exact right.refused.trans (congrArg (Except.mapError _) left.refused.symm)
  · intro sink steps entry
    rcases run_like sessions (rfl : labels.onFunctions entry = _) sink steps with
      ⟨⟨⟩, _⟩ | ⟨results, after⟩
    refine ⟨?_, after.consoles.symm⟩
    generalize (run sink steps entry _).1 = result at results ⊢
    generalize (run sink steps _ _).1 = twin at results ⊢
    cases results with
    | ok => rfl
    | error reasons =>
      obtain rfl := Renaming.interruption_eq reasons
      rfl

/-- A mark in front of every variable, and another one in front of every function that is not
built in. -/
def marked : Renaming where
  onVariables name := "of" ++ name
  onFunctions name := if name = "print" then name else "to" ++ name
  variables_injective first second same := (String.append_right_inj _).mp same
  functions_injective := by
    have unlike (name : String) : "to" ++ name ≠ "print" := by
      intro same
      have heads := congrArg String.toList same
      simp at heads
    intro first second same
    simp only at same
    split at same <;> split at same
    · exact same
    · subst_vars
      exact absurd same.symm (unlike second)
    · subst_vars
      exact absurd same (unlike first)
    · exact (String.append_right_inj _).mp same
  print_iff name := by
    constructor
    · intro same
      split at same
      · exact same
      · have heads := congrArg String.toList same
        simp at heads
    · rintro rfl
      rfl

/-- A function with a parameter of its own name. -/
def selfNamed : Program :=
  let inner : Function := ⟨"f", [⟨"f", ⟨"int", 0⟩⟩], ⟨"int", 0⟩,
    [.returns (some (.identifier "f" 1)) 1], 1, 1⟩
  let main : Function := ⟨"main", [], ⟨"int", 0⟩,
    [.returns (some (.call (.identifier "f" 2) [.literal (.int 3) 2] 2)) 2], 2, 2⟩
  ⟨[inner.declaration, main.declaration]⟩

/-- With the function and its parameter named differently, the call gives the same. -/
theorem selfNamed_marked :
    ((empty.load selfNamed).2.run .accepting 5 "main").1 = .ok (some (.int 3)) ∧
    ((empty.load (selfNamed.rename marked)).2.run .accepting 5 "tomain").1 =
      .ok (some (.int 3)) := by
  have runs : ((empty.load selfNamed).2.run .accepting 5 "main").1 = .ok (some (.int 3)) := rfl
  refine ⟨runs, ?_⟩
  have same := ((run_rename marked selfNamed).2 .accepting 5 "main").1
  rw [runs] at same
  exact same

end Session

end Scriptlet
