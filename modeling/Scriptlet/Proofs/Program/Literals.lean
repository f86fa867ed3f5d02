import Scriptlet.Proofs.Surface.Desugar

/-! The names and values in a tree. In the tree of a written program there are those of its
symbols, and besides the truth value in place of a condition that was left out. -/
namespace Scriptlet

mutual

/-- The names and values in an expression, in their order. -/
def Expr.literals : Expr → List Literal
  | .literal value _ => [.value value]
  | .identifier name _ => [.identifier name]
  | .unary _ operand _ => operand.literals
  | .binary left _ right _ => left.literals ++ right.literals
  | .member object name _ => object.literals ++ [.identifier name]
  | .call callee arguments _ => callee.literals ++ Expr.allLiterals arguments
  | .parenthesized inner _ => inner.literals
  | .assign name value _ => .identifier name :: value.literals

def Expr.allLiterals : List Expr → List Literal
  | [] => []
  | first :: rest => first.literals ++ Expr.allLiterals rest

end

def optionalLiterals (expression : Option Expr) : List Literal :=
  (expression.map Expr.literals).getD []

def DeclaredType.literal (type : DeclaredType) : Literal := .identifier type.name

def Parameter.literals (parameter : Parameter) : List Literal :=
  [.identifier parameter.name, parameter.type.literal]

mutual

/-- The names and values in a statement. -/
def Stmt.literals : Stmt → List Literal
  | .block statements _ => Stmt.allLiterals statements
  | .evaluate expression _ => expression.literals
  | .declare name type initializer _ =>
    .identifier name :: type.literal :: optionalLiterals initializer
  | .returns value _ => optionalLiterals value
  | .branch condition whenTrue none _ => condition.literals ++ whenTrue.literals
  | .branch condition whenTrue (some whenFalse) _ =>
    condition.literals ++ whenTrue.literals ++ whenFalse.literals
  | .loop condition body _ _ => condition.literals ++ body.literals
  | .leave _ => []
  | .proceed _ => []
  | .function name parameters result body _ _ =>
    .identifier name :: result.literal :: (parameters.flatMap Parameter.literals ++
      Stmt.allLiterals body)

def Stmt.allLiterals : List Stmt → List Literal
  | [] => []
  | first :: rest => first.literals ++ Stmt.allLiterals rest

end

def Program.literals (program : Program) : List Literal := Stmt.allLiterals program.declarations

/-- The names and values among symbols. -/
def Symbol.literals (symbols : List Symbol) : List Literal := symbols.filterMap Symbol.literal

namespace Symbol

@[simp] theorem literals_nil : literals [] = [] := rfl

@[simp] theorem literals_mark (kind : Kind) (symbols : List Symbol) :
    literals (.mark kind :: symbols) = literals symbols := rfl

@[simp] theorem literals_name (text : String) (symbols : List Symbol) :
    literals (.name text :: symbols) = .identifier text :: literals symbols := rfl

@[simp] theorem literals_value (known : Value) (symbols : List Symbol) :
    literals (.value known :: symbols) = .value known :: literals symbols := rfl

@[simp] theorem literals_append (front back : List Symbol) :
    literals (front ++ back) = literals front ++ literals back :=
  List.filterMap_append

end Symbol

namespace Surface

open Scriptlet.Symbol (literals)

private theorem literals_separated (parts : List (List Symbol)) :
    literals (separated parts) = parts.flatMap literals := by
  fun_induction separated parts with
  | case1 => rfl
  | case2 last => simp
  | case3 first second rest ih => simp [ih]

/-- The names and values of an expression are those of its symbols. -/
theorem Expr.WellFormed.literals_desugar {expression : Expr} (proper : expression.WellFormed)
    (lines : List Nat) : (expression.desugar lines).literals = literals expression.spelling := by
  induction proper generalizing lines with
  | literal => rfl
  | identifier => rfl
  | parenthesized nested ih => simp [Expr.desugar, Expr.spelling, Scriptlet.Expr.literals, ih]
  | member tight nested ih => simp [Expr.desugar, Expr.spelling, Scriptlet.Expr.literals, ih]
  | @call callee arguments tight nested few each ih others =>
    have all (lines : List Nat) : Scriptlet.Expr.allLiterals (Expr.desugarAll arguments lines) =
        (Expr.spellings arguments).flatMap literals := by
      clear few each
      induction arguments generalizing lines with
      | nil => rfl
      | cons first rest inner =>
        obtain ⟨head, tail⟩ := List.forall_mem_cons.mp others
        simp [Expr.desugarAll, Expr.spellings, Scriptlet.Expr.allLiterals, head, inner tail]
    simp [Expr.desugar, Expr.spelling, Scriptlet.Expr.literals, literals_separated, ih, all]
  | unary tight nested ih => simp [Expr.desugar, Expr.spelling, Scriptlet.Expr.literals, ih]
  | binary tight first tighter second ih other =>
    simp [Expr.desugar, Expr.spelling, Scriptlet.Expr.literals, ih, other]
  | assign nested ih => simp [Expr.desugar, Expr.spelling, Scriptlet.Expr.literals, ih]

private theorem literals_optional {value : Option Expr}
    (proper : ∀ expression ∈ value, expression.WellFormed) (lines : List Nat) :
    optionalLiterals (value.map fun expression => expression.desugar lines) =
      literals (optionalSpelling value) := by
  cases value with
  | none => rfl
  | some expression => exact (proper expression rfl).literals_desugar lines

private theorem literals_type (type : DeclaredType) : literals type.spelling = [type.literal] := by
  have stars : literals (List.replicate type.stars (.mark .star)) = [] := by
    rw [literals, List.filterMap_replicate_of_none rfl]
  rw [DeclaredType.spelling, Symbol.literals_name, stars]
  rfl

private theorem literals_parameters (parameters : List Parameter) :
    literals (separated (parameters.map Parameter.spelling)) =
      parameters.flatMap Parameter.literals := by
  rw [literals_separated, List.flatMap_map]
  congr
  funext parameter
  simp [Parameter.spelling, Parameter.literals, literals_type]

private theorem literals_valueSpelling (value : Option Expr) :
    literals (valueSpelling value) = literals (optionalSpelling value) := by
  cases value <;> simp [valueSpelling, optionalSpelling]

private theorem literals_declaration {name : String} {type : DeclaredType} {value : Option Expr}
    (proper : ∀ expression ∈ value, expression.WellFormed) (lines : List Nat) :
    (declarationTree name type value lines).literals =
      literals (declarationSpelling name type value) := by
  simp [declarationTree, declarationSpelling, Scriptlet.Stmt.literals, literals_optional proper,
    literals_type, literals_valueSpelling]

private theorem literals_initializer {initializer : Initializer} (proper : initializer.WellFormed)
    (lines : List Nat) : Scriptlet.Stmt.allLiterals (initializer.desugar lines).toList =
      literals initializer.spelling := by
  cases initializer with
  | absent => rfl
  | declaration name type value =>
    have valued : ∀ expression ∈ some value, expression.WellFormed := by
      rintro _ ⟨⟩
      exact proper
    simp [Initializer.desugar, Initializer.spelling, Scriptlet.Stmt.allLiterals,
      literals_declaration valued]
  | expression value =>
    have valued : value.WellFormed := proper
    simp [Initializer.desugar, Initializer.spelling, Scriptlet.Stmt.allLiterals,
      Scriptlet.Stmt.literals, valued.literals_desugar]

private theorem literals_conditionTree {condition : Option Expr}
    (proper : ∀ expression ∈ condition, expression.WellFormed) (lines : List Nat) :
    (conditionTree condition lines).literals ⊆
      .value (.bool true) :: literals (optionalSpelling condition) := by
  cases condition with
  | none => simp [conditionTree, Scriptlet.Expr.literals]
  | some expression =>
    rw [conditionTree, (proper expression rfl).literals_desugar]
    exact List.subset_cons_self ..

private theorem literals_forTree (initializer : Option Scriptlet.Stmt) (condition : Scriptlet.Expr)
    (increment : Option Scriptlet.Expr) (body : Scriptlet.Stmt) (line : Nat) :
    (forTree initializer condition increment body line).literals =
      Scriptlet.Stmt.allLiterals initializer.toList ++
        (condition.literals ++ (body.literals ++ optionalLiterals increment)) := by
  cases initializer <;> cases increment <;>
    simp [forTree, Scriptlet.Stmt.literals, Scriptlet.Stmt.allLiterals, optionalLiterals]

/-- Lists that hold one literal besides others may be joined. -/
theorem append_subset_cons {first second front back : List Literal} {literal : Literal}
    (before : first ⊆ literal :: front) (behind : second ⊆ literal :: back) :
    first ++ second ⊆ literal :: (front ++ back) := by
  apply List.append_subset.mpr
  constructor
  · exact List.Subset.trans before (List.cons_subset_cons _ (List.subset_append_left ..))
  · exact List.Subset.trans behind (List.cons_subset_cons _ (List.subset_append_right ..))

private theorem literals_desugarAll {statements : List Stmt}
    (each : ∀ statement ∈ statements, ∀ lines, (statement.desugar lines).literals ⊆
      .value (.bool true) :: literals statement.spelling) (lines : List Nat) :
    Scriptlet.Stmt.allLiterals (Stmt.desugarAll statements lines) ⊆
      .value (.bool true) :: literals (Stmt.spellings statements) := by
  induction statements generalizing lines with
  | nil => exact List.nil_subset _
  | cons first rest ih =>
    obtain ⟨head, tail⟩ := List.forall_mem_cons.mp each
    rw [Stmt.desugarAll, Stmt.spellings, Scriptlet.Stmt.allLiterals, Symbol.literals_append]
    exact append_subset_cons (head lines) (ih tail _)

private theorem Stmt.WellFormed.literals_desugar {statement : Stmt} {inLoop : Bool}
    (proper : statement.WellFormed inLoop) (lines : List Nat) :
    (statement.desugar lines).literals ⊆
      .value (.bool true) :: literals statement.spelling := by
  induction proper generalizing lines with
  | @function _ name parameters result body few each ih =>
    simp only [Stmt.desugar, Stmt.spelling, headSpelling, Scriptlet.Stmt.literals,
      Symbol.literals_append, Symbol.literals_mark, Symbol.literals_name, literals_parameters,
      literals_type, Symbol.literals_nil, List.append_nil]
    -- The type of the result is written behind the parameters.
    have moved (inside : List Literal) :
        .identifier name :: result.literal :: (parameters.flatMap Parameter.literals ++ inside) ⊆
          .identifier name :: (parameters.flatMap Parameter.literals ++ [result.literal]) ++
            inside := by
      simpa using List.cons_subset_cons _ List.perm_middle.symm.subset
    exact List.Subset.trans (moved _)
      (append_subset_cons (List.subset_cons_self ..) (literals_desugarAll ih _))
  | declare initial =>
    rw [Stmt.desugar, literals_declaration initial]
    exact List.subset_cons_self ..
  | block each ih =>
    have inner := literals_desugarAll ih (lines.drop 1)
    simpa [Stmt.desugar, Stmt.spelling, Scriptlet.Stmt.literals] using inner
  | evaluate nested =>
    simp [Stmt.desugar, Stmt.spelling, Scriptlet.Stmt.literals, nested.literals_desugar]
  | returns result =>
    simp [Stmt.desugar, Stmt.spelling, Scriptlet.Stmt.literals, literals_optional result]
  | branch test _ first ih =>
    simp only [Stmt.desugar, Stmt.spelling, conditionSpelling, Scriptlet.Stmt.literals,
      test.literals_desugar, Symbol.literals_append, Symbol.literals_mark, Symbol.literals_nil,
      List.append_nil]
    exact append_subset_cons (List.subset_cons_self ..) (ih _)
  | choice test _ _ first _ second ih other =>
    simp only [Stmt.desugar, Stmt.spelling, conditionSpelling, Scriptlet.Stmt.literals,
      test.literals_desugar, Symbol.literals_append, Symbol.literals_mark, Symbol.literals_nil,
      List.append_nil, List.append_assoc]
    exact append_subset_cons (List.subset_cons_self ..) (append_subset_cons (ih _) (other _))
  | whileLoop test _ nested ih =>
    simp only [Stmt.desugar, Stmt.spelling, conditionSpelling, Scriptlet.Stmt.literals,
      test.literals_desugar, Symbol.literals_append, Symbol.literals_mark, Symbol.literals_nil,
      List.append_nil]
    exact append_subset_cons (List.subset_cons_self ..) (ih _)
  | @forLoop _ initializer condition increment body start test step _ nested ih =>
    simp only [Stmt.desugar, literals_forTree, literals_initializer start,
      literals_optional step, Stmt.spelling, clausesSpelling, Symbol.literals_append,
      Symbol.literals_mark, Symbol.literals_nil, List.append_nil, List.append_assoc]
    refine append_subset_cons (List.subset_cons_self ..)
      (append_subset_cons (literals_conditionTree test _) ?_)
    -- The increment is written in front of the body and stands behind it in the tree.
    exact List.Subset.trans List.perm_append_comm.subset
      (append_subset_cons (List.subset_cons_self ..) (ih _))
  | leave => exact List.nil_subset _
  | proceed => exact List.nil_subset _

/-- The names and values in the tree of a program. -/
theorem Program.literals_desugar (program : Program) (lines : List Nat) :
    (program.desugar lines).literals ⊆ .value (.bool true) :: literals program.spelling :=
  literals_desugarAll
    (fun statement member => (program.wellFormed statement member).literals_desugar) lines

end Surface

end Scriptlet
