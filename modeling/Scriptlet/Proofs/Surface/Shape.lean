import Scriptlet.Proofs.Surface.Desugar

/-! The shape of the trees that written programs have: how their operands bind, what stands
in their branches and loops, and where loops are left. -/
namespace Scriptlet

/-- How tightly the outermost part of a tree binds. -/
def Expr.rank : Expr → Nat
  | literal _ _ => 9
  | identifier _ _ => 9
  | parenthesized _ _ => 9
  | member _ _ _ => 8
  | call _ _ _ => 8
  | unary _ _ _ => 7
  | binary _ operator _ _ => operator.rank
  | assign _ _ _ => 0

/-- Trees that respect precedence and grouping: the right operand of a binary operator binds
more tightly than the operator and the left one at least as tightly, and an assignment is an
operand of nothing unless it stands in parentheses. -/
inductive Expr.Shaped : Expr → Prop where
  | literal {value : Value} {line : Nat} : Shaped (.literal value line)
  | identifier {name : String} {line : Nat} : Shaped (.identifier name line)
  | parenthesized {inner : Expr} {line : Nat} (nested : Shaped inner) :
      Shaped (.parenthesized inner line)
  | member {object : Expr} {name : String} {line : Nat} (tight : 8 ≤ object.rank)
      (nested : Shaped object) : Shaped (.member object name line)
  | call {callee : Expr} {arguments : List Expr} {line : Nat} (tight : 8 ≤ callee.rank)
      (nested : Shaped callee) (few : arguments.length ≤ 16)
      (each : ∀ argument ∈ arguments, Shaped argument) : Shaped (.call callee arguments line)
  | unary {operator : UnaryOperator} {operand : Expr} {line : Nat} (tight : 7 ≤ operand.rank)
      (nested : Shaped operand) : Shaped (.unary operator operand line)
  | binary {left right : Expr} {operator : BinaryOperator} {line : Nat}
      (tight : operator.rank ≤ left.rank) (first : Shaped left)
      (tighter : operator.rank < right.rank) (second : Shaped right) :
      Shaped (.binary left operator right line)
  | assign {name : String} {value : Expr} {line : Nat} (nested : Shaped value) :
      Shaped (.assign name value line)

def Stmt.isDeclaration : Stmt → Bool
  | function _ _ _ _ _ _ => true
  | declare _ _ _ _ => true
  | _ => false

/-- The body of a loop with an increment: a block of a statement and the increment. -/
def Stmt.EndsWithStep (body : Stmt) : Prop :=
  ∃ (inner : Stmt) (increment : Expr) (stepLine line : Nat), inner.isDeclaration = false ∧
    body = .block [inner, .evaluate increment stepLine] line

/-- Statements in a loop or outside of one, of which no branch and no loop body is a
declaration. A loop is left or continued only inside of it and inside of the function in which
it stands. -/
inductive Stmt.Shaped : Bool → Stmt → Prop where
  | block {inLoop : Bool} {statements : List Stmt} {line : Nat}
      (each : ∀ statement ∈ statements, Shaped inLoop statement) :
      Shaped inLoop (.block statements line)
  | evaluate {inLoop : Bool} {expression : Expr} {line : Nat} (nested : expression.Shaped) :
      Shaped inLoop (.evaluate expression line)
  | declare {inLoop : Bool} {name : String} {type : DeclaredType} {value : Option Expr} {line : Nat}
      (initial : ∀ expression ∈ value, expression.Shaped) :
      Shaped inLoop (.declare name type value line)
  | returns {inLoop : Bool} {value : Option Expr} {line : Nat}
      (result : ∀ expression ∈ value, expression.Shaped) : Shaped inLoop (.returns value line)
  | branch {inLoop : Bool} {condition : Expr} {whenTrue : Stmt} {whenFalse : Option Stmt}
      {line : Nat} (test : condition.Shaped) (noDeclaration : whenTrue.isDeclaration = false)
      (first : Shaped inLoop whenTrue) (noOther : ∀ other ∈ whenFalse, other.isDeclaration = false)
      (second : ∀ other ∈ whenFalse, Shaped inLoop other) :
      Shaped inLoop (.branch condition whenTrue whenFalse line)
  | loop {inLoop : Bool} {condition : Expr} {body : Stmt} {stepped : Bool} {line : Nat}
      (test : condition.Shaped) (noDeclaration : body.isDeclaration = false)
      (nested : Shaped true body) (step : stepped = true → body.EndsWithStep) :
      Shaped inLoop (.loop condition body stepped line)
  | leave {line : Nat} : Shaped true (.leave line)
  | proceed {line : Nat} : Shaped true (.proceed line)
  | function {inLoop : Bool} {name : String} {parameters : List Parameter} {result : DeclaredType}
      {body : List Stmt} {bodyLine line : Nat} (few : parameters.length ≤ 16)
      (each : ∀ statement ∈ body, Shaped false statement) :
      Shaped inLoop (.function name parameters result body bodyLine line)

namespace Surface

@[simp] theorem Expr.rank_desugar (expression : Expr) (lines : List Nat) :
    (expression.desugar lines).rank = expression.rank := by
  cases expression <;> rfl

private theorem Expr.length_desugarAll (expressions : List Expr) (lines : List Nat) :
    (Expr.desugarAll expressions lines).length = expressions.length := by
  induction expressions generalizing lines with
  | nil => rfl
  | cons first rest ih => rw [Expr.desugarAll, List.length_cons, List.length_cons, ih]

private theorem Expr.mem_desugarAll {expressions : List Expr} {lines : List Nat}
    {tree : Scriptlet.Expr} (member : tree ∈ Expr.desugarAll expressions lines) :
    ∃ expression ∈ expressions, ∃ lines, tree = expression.desugar lines := by
  induction expressions generalizing lines with
  | nil => cases member
  | cons first rest ih =>
    rcases List.mem_cons.mp member with rfl | member
    · exact ⟨first, List.mem_cons_self .., _, rfl⟩
    · obtain ⟨expression, present, same⟩ := ih member
      exact ⟨expression, List.mem_cons_of_mem _ present, same⟩

private theorem Expr.WellFormed.shaped {expression : Expr} (proper : expression.WellFormed)
    (lines : List Nat) : (expression.desugar lines).Shaped := by
  induction proper generalizing lines with
  | literal => exact .literal
  | identifier => exact .identifier
  | parenthesized _ ih => exact .parenthesized (ih _)
  | member tight _ ih => exact .member (by simpa using tight) (ih _)
  | call tight _ few _ ih others =>
    refine .call (by simpa using tight) (ih _) (by simpa [Expr.length_desugarAll] using few) ?_
    intro tree member
    obtain ⟨argument, present, lines, rfl⟩ := Expr.mem_desugarAll member
    exact others argument present lines
  | unary tight _ ih => exact .unary (by simpa using tight) (ih _)
  | binary tight _ tighter _ ih other =>
    exact .binary (by simpa using tight) (ih _) (by simpa using tighter) (other _)
  | assign _ ih => exact .assign (ih _)

private theorem shaped_map {value : Option Expr}
    (proper : ∀ expression ∈ value, expression.WellFormed) (lines : List Nat) :
    ∀ tree ∈ value.map (fun expression => expression.desugar lines), tree.Shaped := by
  cases value with
  | none => simp
  | some expression =>
    rintro _ ⟨⟩
    exact (proper expression rfl).shaped lines

private theorem Stmt.mem_desugarAll {statements : List Stmt} {lines : List Nat}
    {tree : Scriptlet.Stmt} (member : tree ∈ Stmt.desugarAll statements lines) :
    ∃ statement ∈ statements, ∃ lines, tree = statement.desugar lines := by
  induction statements generalizing lines with
  | nil => cases member
  | cons first rest ih =>
    rcases List.mem_cons.mp member with rfl | member
    · exact ⟨first, List.mem_cons_self .., _, rfl⟩
    · obtain ⟨statement, present, same⟩ := ih member
      exact ⟨statement, List.mem_cons_of_mem _ present, same⟩

theorem shaped_desugarAll {statements : List Stmt} {inLoop : Bool}
    (each : ∀ statement ∈ statements, ∀ lines, (statement.desugar lines).Shaped inLoop)
    (lines : List Nat) : ∀ tree ∈ Stmt.desugarAll statements lines, tree.Shaped inLoop := by
  intro tree member
  obtain ⟨statement, present, lines, rfl⟩ := Stmt.mem_desugarAll member
  exact each statement present lines

private theorem isDeclaration_forTree (initializer : Option Scriptlet.Stmt)
    (condition : Scriptlet.Expr) (increment : Option Scriptlet.Expr) (body : Scriptlet.Stmt)
    (line : Nat) :
    (forTree initializer condition increment body line).isDeclaration = false := by
  cases initializer <;> cases increment <;> rfl

theorem isDeclaration_desugar (statement : Stmt) (lines : List Nat) :
    (statement.desugar lines).isDeclaration = statement.isDeclaration := by
  cases statement with
  | forLoop => exact isDeclaration_forTree ..
  | _ => rfl

private theorem Initializer.WellFormed.shaped {initializer : Initializer}
    (proper : initializer.WellFormed) (inLoop : Bool) (lines : List Nat) :
    ∀ tree ∈ initializer.desugar lines, tree.Shaped inLoop := by
  cases initializer with
  | absent => simp [Initializer.desugar]
  | declaration name type value =>
    rintro _ ⟨⟩
    have valued : value.WellFormed := proper
    exact .declare (by rintro _ ⟨⟩; exact valued.shaped _)
  | expression value =>
    rintro _ ⟨⟩
    have valued : value.WellFormed := proper
    exact .evaluate (valued.shaped _)

private theorem shaped_conditionTree {condition : Option Expr}
    (proper : ∀ expression ∈ condition, expression.WellFormed) (lines : List Nat) :
    (conditionTree condition lines).Shaped := by
  cases condition with
  | none => exact .literal
  | some expression => exact (proper expression rfl).shaped lines

/-- The tree of a `for` loop has the shape that its parts allow. -/
theorem shaped_forTree {initializer : Option Scriptlet.Stmt} {condition : Scriptlet.Expr}
    {increment : Option Scriptlet.Expr} {body : Scriptlet.Stmt} {line : Nat} {inLoop : Bool}
    (start : ∀ first ∈ initializer, first.Shaped inLoop) (test : condition.Shaped)
    (step : ∀ expression ∈ increment, expression.Shaped)
    (noDeclaration : body.isDeclaration = false) (nested : body.Shaped true) :
    (forTree initializer condition increment body line).Shaped inLoop := by
  have plain : (Scriptlet.Stmt.loop condition body false line).Shaped inLoop :=
    .loop test noDeclaration nested (by simp)
  have stepped {expression : Scriptlet.Expr} (shaped : expression.Shaped) :
      (Scriptlet.Stmt.loop condition (.block [body, .evaluate expression expression.line] line) true
        line).Shaped inLoop := by
    refine .loop test rfl (.block ?_) fun _ => ⟨body, expression, _, _, noDeclaration, rfl⟩
    simpa using ⟨nested, .evaluate shaped⟩
  cases initializer <;> cases increment
  case none.none => exact plain
  case none.some expression => exact stepped (step expression rfl)
  case some.none first => exact .block (by simpa using ⟨start first rfl, plain⟩)
  case some.some first expression =>
    exact .block (by simpa using ⟨start first rfl, stepped (step expression rfl)⟩)

theorem Stmt.WellFormed.shaped {statement : Stmt} {inLoop : Bool}
    (proper : statement.WellFormed inLoop) (lines : List Nat) :
    (statement.desugar lines).Shaped inLoop := by
  induction proper generalizing lines with
  | function few _ ih => exact .function few (shaped_desugarAll ih _)
  | declare initial => exact .declare (shaped_map initial _)
  | block _ ih => exact .block (shaped_desugarAll ih _)
  | evaluate nested => exact .evaluate (nested.shaped _)
  | returns result => exact .returns (shaped_map result _)
  | branch test noDeclaration _ ih =>
    exact .branch (test.shaped _) (by rw [isDeclaration_desugar, noDeclaration]) (ih _) (by simp)
      (by simp)
  | choice test noDeclaration _ _ noOther _ ih other =>
    refine .branch (test.shaped _) (by rw [isDeclaration_desugar, noDeclaration]) (ih _) ?_ ?_
    · rintro _ ⟨⟩
      rw [isDeclaration_desugar, noOther]
    · rintro _ ⟨⟩
      exact other _
  | whileLoop test noDeclaration _ ih =>
    exact .loop (test.shaped _) (by rw [isDeclaration_desugar, noDeclaration]) (ih _) (by simp)
  | forLoop start test step noDeclaration _ ih =>
    exact shaped_forTree (start.shaped _ _) (shaped_conditionTree test _) (shaped_map step _)
      (by rw [isDeclaration_desugar, noDeclaration]) (ih _)
  | leave => exact .leave
  | proceed => exact .proceed

end Surface

end Scriptlet
