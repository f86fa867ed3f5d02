import Scriptlet.Proofs.Surface.Spelling

/-! What a written program means as a tree. Desugaring is given the lines on which the
symbols of the spelling stand, one line for each symbol, and records them in the tree: every
node has the line of its first symbol. With no lines given, all lines are zero, which is the
tree without its lines. -/
namespace Scriptlet

mutual

def Expr.withoutLines : Expr → Expr
  | .literal value _ => .literal value 0
  | .identifier name _ => .identifier name 0
  | .unary operator operand _ => .unary operator operand.withoutLines 0
  | .binary left operator right _ => .binary left.withoutLines operator right.withoutLines 0
  | .member object name _ => .member object.withoutLines name 0
  | .call callee arguments _ => .call callee.withoutLines (Expr.allWithoutLines arguments) 0
  | .parenthesized inner _ => .parenthesized inner.withoutLines 0
  | .assign name value _ => .assign name value.withoutLines 0

def Expr.allWithoutLines : List Expr → List Expr
  | [] => []
  | first :: rest => first.withoutLines :: Expr.allWithoutLines rest

end

mutual

def Stmt.withoutLines : Stmt → Stmt
  | .block statements _ => .block (Stmt.allWithoutLines statements) 0
  | .evaluate expression _ => .evaluate expression.withoutLines 0
  | .declare name type initializer _ =>
    .declare name type (initializer.map Expr.withoutLines) 0
  | .returns value _ => .returns (value.map Expr.withoutLines) 0
  | .branch condition whenTrue none _ =>
    .branch condition.withoutLines whenTrue.withoutLines none 0
  | .branch condition whenTrue (some whenFalse) _ =>
    .branch condition.withoutLines whenTrue.withoutLines (some whenFalse.withoutLines) 0
  | .loop condition body stepped _ => .loop condition.withoutLines body.withoutLines stepped 0
  | .leave _ => .leave 0
  | .proceed _ => .proceed 0
  | .function name parameters result body _ _ =>
    .function name parameters result (Stmt.allWithoutLines body) 0 0

def Stmt.allWithoutLines : List Stmt → List Stmt
  | [] => []
  | first :: rest => first.withoutLines :: Stmt.allWithoutLines rest

end

theorem Expr.allWithoutLines_eq_map (expressions : List Expr) :
    Expr.allWithoutLines expressions = expressions.map Expr.withoutLines := by
  induction expressions with
  | nil => rfl
  | cons first rest ih => rw [Expr.allWithoutLines, ih, List.map_cons]

theorem Stmt.allWithoutLines_eq_map (statements : List Stmt) :
    Stmt.allWithoutLines statements = statements.map Stmt.withoutLines := by
  induction statements with
  | nil => rfl
  | cons first rest ih => rw [Stmt.allWithoutLines, ih, List.map_cons]

/-- A program up to line numbers. -/
def Program.withoutLines (program : Program) : Program :=
  ⟨Stmt.allWithoutLines program.declarations⟩

namespace Surface

mutual

/-- The tree of an expression whose symbols stand on the given lines. -/
def Expr.desugar : Expr → List Nat → Scriptlet.Expr
  | .literal value, lines => .literal value (lines.headD 0)
  | .identifier name, lines => .identifier name (lines.headD 0)
  | .parenthesized inner, lines =>
    .parenthesized (inner.desugar (lines.drop 1)) (lines.headD 0)
  | .member object name, lines => .member (object.desugar lines) name (lines.headD 0)
  | .call callee arguments, lines =>
    .call (callee.desugar lines)
      (Expr.desugarAll arguments ((lines.drop callee.spelling.length).drop 1)) (lines.headD 0)
  | .unary operator operand, lines =>
    .unary operator (operand.desugar (lines.drop 1)) (lines.headD 0)
  | .binary left operator right, lines =>
    .binary (left.desugar lines) operator
      (right.desugar ((lines.drop left.spelling.length).drop 1)) (lines.headD 0)
  | .assign name value, lines => .assign name (value.desugar (lines.drop 2)) (lines.headD 0)

/-- The trees of expressions with commas between them. -/
def Expr.desugarAll : List Expr → List Nat → List Scriptlet.Expr
  | [], _ => []
  | first :: rest, lines =>
    first.desugar lines :: Expr.desugarAll rest ((lines.drop first.spelling.length).drop 1)

end

/-- The tree of a variable declaration. -/
def declarationTree (name : String) (type : DeclaredType) (value : Option Expr)
    (lines : List Nat) : Scriptlet.Stmt :=
  let behindType := (lines.drop 2).drop type.spelling.length
  .declare name type (value.map fun initial => initial.desugar (behindType.drop 1))
    (lines.headD 0)

def Initializer.desugar : Initializer → List Nat → Option Scriptlet.Stmt
  | absent, _ => none
  | declaration name type value, lines => some (declarationTree name type (some value) lines)
  | expression value, lines => some (.evaluate (value.desugar lines) (lines.headD 0))

/-- A `for` loop as a `while` loop. The increment stands behind the body in a block with it,
and the initializer in front of the loop in another block. -/
def forTree (initializer : Option Scriptlet.Stmt) (condition : Scriptlet.Expr)
    (increment : Option Scriptlet.Expr) (body : Scriptlet.Stmt) (line : Nat) : Scriptlet.Stmt :=
  match initializer, increment with
  | none, none => .loop condition body false line
  | none, some step => .loop condition (.block [body, .evaluate step step.line] line) true line
  | some first, none => .block [first, .loop condition body false line] line
  | some first, some step =>
    .block [first, .loop condition (.block [body, .evaluate step step.line] line) true line] line

/-- A condition that is left out is true; its line is that of the symbol in its place. -/
def conditionTree : Option Expr → List Nat → Scriptlet.Expr
  | none, lines => .literal (.bool true) (lines.headD 0)
  | some condition, lines => condition.desugar lines

mutual

def Stmt.desugar : Stmt → List Nat → Scriptlet.Stmt
  | .function name parameters result body, lines =>
    let brace := lines.drop (headSpelling name parameters result).length
    .function name parameters result (Stmt.desugarAll body (brace.drop 1)) (brace.headD 0)
      (lines.headD 0)
  | .declare name type value, lines => declarationTree name type value lines
  | .block statements, lines => .block (Stmt.desugarAll statements (lines.drop 1)) (lines.headD 0)
  | .evaluate expression, lines => .evaluate (expression.desugar lines) (lines.headD 0)
  | .returns value, lines =>
    .returns (value.map fun result => result.desugar (lines.drop 1)) (lines.headD 0)
  | .branch condition whenTrue, lines =>
    .branch (condition.desugar (lines.drop 2))
      (whenTrue.desugar (lines.drop (conditionSpelling .ifWord condition).length)) none
      (lines.headD 0)
  | .choice condition whenTrue whenFalse, lines =>
    let first := lines.drop (conditionSpelling .ifWord condition).length
    let second := (first.drop whenTrue.spelling.length).drop 1
    .branch (condition.desugar (lines.drop 2)) (whenTrue.desugar first)
      (some (whenFalse.desugar second)) (lines.headD 0)
  | .whileLoop condition body, lines =>
    .loop (condition.desugar (lines.drop 2))
      (body.desugar (lines.drop (conditionSpelling .whileWord condition).length)) false
      (lines.headD 0)
  | .forLoop initializer condition increment body, lines =>
    let test := (lines.drop 2).drop initializer.spelling.length
    let step := (test.drop (optionalSpelling condition).length).drop 1
    let inner := lines.drop (clausesSpelling initializer condition increment).length
    forTree (initializer.desugar (lines.drop 2)) (conditionTree condition test)
      (increment.map fun expression => expression.desugar step) (body.desugar inner)
      (lines.headD 0)
  | .leave, lines => .leave (lines.headD 0)
  | .proceed, lines => .proceed (lines.headD 0)

/-- The trees of statements that stand one after the other. -/
def Stmt.desugarAll : List Stmt → List Nat → List Scriptlet.Stmt
  | [], _ => []
  | first :: rest, lines =>
    first.desugar lines :: Stmt.desugarAll rest (lines.drop first.spelling.length)

end

/-- The tree of a program whose symbols stand on the given lines. -/
def Program.desugar (program : Program) (lines : List Nat) : Scriptlet.Program :=
  ⟨Stmt.desugarAll program.statements lines⟩

@[simp] theorem Expr.line_desugar (expression : Expr) (lines : List Nat) :
    (expression.desugar lines).line = lines.headD 0 := by
  cases expression <;> rfl

private theorem Expr.WellFormed.withoutLines_desugar {expression : Expr}
    (proper : expression.WellFormed) (lines : List Nat) :
    (expression.desugar lines).withoutLines = expression.desugar [] := by
  induction proper generalizing lines with
  | literal => rfl
  | identifier => rfl
  | parenthesized nested ih => simp [Expr.desugar, Scriptlet.Expr.withoutLines, ih]
  | member tight nested ih => simp [Expr.desugar, Scriptlet.Expr.withoutLines, ih]
  | @call callee arguments tight nested few each ih others =>
    have all (lines : List Nat) : Scriptlet.Expr.allWithoutLines (Expr.desugarAll arguments lines) =
        Expr.desugarAll arguments [] := by
      clear few each
      induction arguments generalizing lines with
      | nil => rfl
      | cons first rest inner =>
        obtain ⟨head, tail⟩ := List.forall_mem_cons.mp others
        simp [Expr.desugarAll, Scriptlet.Expr.allWithoutLines, head, inner tail]
    simp [Expr.desugar, Scriptlet.Expr.withoutLines, ih, all]
  | unary tight nested ih => simp [Expr.desugar, Scriptlet.Expr.withoutLines, ih]
  | binary tight first tighter second ih other =>
    simp [Expr.desugar, Scriptlet.Expr.withoutLines, ih, other]
  | assign nested ih => simp [Expr.desugar, Scriptlet.Expr.withoutLines, ih]

private theorem withoutLines_map {value : Option Expr}
    (proper : ∀ expression ∈ value, expression.WellFormed) (lines : List Nat) :
    (value.map fun expression => expression.desugar lines).map Scriptlet.Expr.withoutLines =
      value.map fun expression => expression.desugar [] := by
  cases value with
  | none => rfl
  | some expression => simp [(proper expression rfl).withoutLines_desugar]

private theorem withoutLines_declarationTree {name : String} {type : DeclaredType}
    {value : Option Expr} (proper : ∀ expression ∈ value, expression.WellFormed) (lines : List Nat)
    :
    (declarationTree name type value lines).withoutLines = declarationTree name type value [] := by
  simp [declarationTree, Stmt.withoutLines, withoutLines_map proper]

private theorem withoutLines_initializer {initializer : Initializer}
    (proper : initializer.WellFormed) (lines : List Nat) :
    (initializer.desugar lines).map Stmt.withoutLines = initializer.desugar [] := by
  cases initializer with
  | absent => rfl
  | declaration name type value =>
    simp only [Initializer.desugar, Option.map_some]
    rw [withoutLines_declarationTree (by rintro expression ⟨⟩; exact proper)]
  | expression value =>
    have valued : value.WellFormed := proper
    simp [Initializer.desugar, Stmt.withoutLines, valued.withoutLines_desugar]

private theorem withoutLines_conditionTree {condition : Option Expr}
    (proper : ∀ expression ∈ condition, expression.WellFormed) (lines : List Nat) :
    (conditionTree condition lines).withoutLines = conditionTree condition [] := by
  cases condition with
  | none => rfl
  | some expression => exact (proper expression rfl).withoutLines_desugar lines

private theorem line_withoutLines (expression : Scriptlet.Expr) :
    expression.withoutLines.line = 0 := by
  cases expression <;> rfl

private theorem withoutLines_forTree (initializer : Option Scriptlet.Stmt)
    (condition : Scriptlet.Expr) (increment : Option Scriptlet.Expr) (body : Scriptlet.Stmt)
    (line : Nat) :
    (forTree initializer condition increment body line).withoutLines =
      forTree (initializer.map Stmt.withoutLines) condition.withoutLines
        (increment.map Scriptlet.Expr.withoutLines) body.withoutLines 0 := by
  cases initializer <;> cases increment <;>
    simp [forTree, Stmt.withoutLines, Stmt.allWithoutLines, line_withoutLines]

private theorem withoutLines_desugarAll {statements : List Stmt}
    (each : ∀ statement ∈ statements, ∀ lines,
      (statement.desugar lines).withoutLines = statement.desugar []) (lines : List Nat) :
    Stmt.allWithoutLines (Stmt.desugarAll statements lines) = Stmt.desugarAll statements [] := by
  induction statements generalizing lines with
  | nil => rfl
  | cons first rest ih =>
    obtain ⟨head, tail⟩ := List.forall_mem_cons.mp each
    simp [Stmt.desugarAll, Stmt.allWithoutLines, head, ih tail]

private theorem Stmt.WellFormed.withoutLines_desugar {statement : Stmt} {inLoop : Bool}
    (proper : statement.WellFormed inLoop) (lines : List Nat) :
    (statement.desugar lines).withoutLines = statement.desugar [] := by
  induction proper generalizing lines with
  | function few each ih =>
    simp [Stmt.desugar, Stmt.withoutLines, withoutLines_desugarAll ih]
  | declare initial => exact withoutLines_declarationTree initial lines
  | block each ih => simp [Stmt.desugar, Stmt.withoutLines, withoutLines_desugarAll ih]
  | evaluate nested => simp [Stmt.desugar, Stmt.withoutLines, nested.withoutLines_desugar]
  | returns result => simp [Stmt.desugar, Stmt.withoutLines, withoutLines_map result]
  | branch test _ first ih =>
    simp [Stmt.desugar, Stmt.withoutLines, test.withoutLines_desugar, ih]
  | choice test _ _ first _ second ih other =>
    simp [Stmt.desugar, Stmt.withoutLines, test.withoutLines_desugar, ih, other]
  | whileLoop test _ nested ih =>
    simp [Stmt.desugar, Stmt.withoutLines, test.withoutLines_desugar, ih]
  | forLoop start test step _ nested ih =>
    simp [Stmt.desugar, withoutLines_forTree, withoutLines_initializer start,
      withoutLines_conditionTree test, withoutLines_map step, ih]
  | leave => rfl
  | proceed => rfl

theorem Program.withoutLines_desugar (program : Program) (lines : List Nat) :
    (program.desugar lines).withoutLines = program.desugar [] := by
  have each : ∀ statement ∈ program.statements, ∀ lines,
      (statement.desugar lines).withoutLines = statement.desugar [] :=
    fun statement member => (program.wellFormed statement member).withoutLines_desugar
  simp only [Program.desugar, Scriptlet.Program.withoutLines, withoutLines_desugarAll each]

end Surface

end Scriptlet
