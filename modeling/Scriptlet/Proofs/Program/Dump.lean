import Scriptlet.Proofs.Except
import Scriptlet.Proofs.Program.Induction
import Scriptlet.Proofs.Program.Literals
import Scriptlet.Proofs.Program.Shown
import Scriptlet.Proofs.Source.Parsed

/-! The dump of a program tells everything about it but its lines. Each tree becomes a list that
begins with a word of its own, or an atom that no other tree becomes. -/
namespace Scriptlet

open SExpr (atom list)

private theorem Value.toSExpr_eq (value : Value) :
    value.toSExpr = atom (Literal.value value).shown := by
  cases value <;> rfl

private theorem Expr.toSExprs_eq (expressions : List Expr) :
    Expr.toSExprs expressions = expressions.map Expr.toSExpr := by
  induction expressions with
  | nil => rfl
  | cons first rest ih => rw [Expr.toSExprs, ih, List.map_cons]

private theorem Stmt.toSExprs_eq (statements : List Stmt) :
    Stmt.toSExprs statements = statements.map Stmt.toSExpr := by
  induction statements with
  | nil => rfl
  | cons first rest ih => rw [Stmt.toSExprs, ih, List.map_cons]

/-- All these names and values can be told apart. -/
def Told (literals : List Literal) : Prop :=
  ∀ literal ∈ literals, literal.Scanned ∧ literal.Finite

@[simp] theorem told_nil : Told [] := nofun

@[simp] theorem told_append {front back : List Literal} :
    Told (front ++ back) ↔ Told front ∧ Told back :=
  List.forall_mem_append

@[simp] theorem told_cons {first : Literal} {rest : List Literal} :
    Told (first :: rest) ↔ (first.Scanned ∧ first.Finite) ∧ Told rest :=
  List.forall_mem_cons

private theorem Expr.told_allLiterals {expressions : List Expr} :
    Told (Expr.allLiterals expressions) ↔ ∀ expression ∈ expressions, Told expression.literals := by
  induction expressions with
  | nil => simp [Expr.allLiterals]
  | cons first rest ih => rw [Expr.allLiterals, told_append, ih, List.forall_mem_cons]

private theorem Stmt.told_allLiterals {statements : List Stmt} :
    Told (Stmt.allLiterals statements) ↔ ∀ statement ∈ statements, Told statement.literals := by
  induction statements with
  | nil => simp [Stmt.allLiterals]
  | cons first rest ih => rw [Stmt.allLiterals, told_append, ih, List.forall_mem_cons]

private theorem told_parameters {parameters : List Parameter} :
    Told (parameters.flatMap Parameter.literals) ↔
      ∀ parameter ∈ parameters, Told parameter.literals := by
  induction parameters with
  | nil => simp
  | cons first rest ih => rw [List.flatMap_cons, told_append, ih, List.forall_mem_cons]

private theorem UnaryOperator.legible (operator : UnaryOperator) :
    (atom operator.symbol).Legible := by
  cases operator <;> exact .ofWord (by decide)

private theorem BinaryOperator.legible (operator : BinaryOperator) :
    (atom operator.symbol).Legible := by
  cases operator <;> exact .ofWord (by decide)

private theorem Expr.legible {expression : Expr} (told : Told expression.literals) :
    expression.toSExpr.Legible := by
  induction expression using Expr.induction with
  | literal value line =>
    obtain ⟨scanned, finite⟩ := told _ List.mem_cons_self
    rw [toSExpr, Value.toSExpr_eq]
    exact Literal.legible scanned finite
  | identifier name line =>
    obtain ⟨scanned, finite⟩ := told _ List.mem_cons_self
    exact Literal.legible scanned finite
  | unary operator operand line ih =>
    refine .list ?_
    simpa using ⟨operator.legible, ih told⟩
  | binary left operator right line ih other =>
    obtain ⟨first, second⟩ := told_append.mp told
    refine .list ?_
    simpa using ⟨operator.legible, ih first, other second⟩
  | member object name line ih =>
    obtain ⟨first, second⟩ := told_append.mp told
    have proper : IsName name := (second _ List.mem_cons_self).1
    refine .list ?_
    simpa using ⟨.ofWord (by decide), ih first, proper.legible⟩
  | call callee arguments line ih others =>
    obtain ⟨first, rest⟩ := told_append.mp told
    rw [Expr.told_allLiterals] at rest
    refine .list ?_
    rw [Expr.toSExprs_eq]
    simpa using ⟨.ofWord (by decide), ih first,
      fun argument member => others argument member (rest argument member)⟩
  | parenthesized inner line ih =>
    refine .list ?_
    simpa using ⟨.ofWord (by decide), ih told⟩
  | assign name value line ih =>
    obtain ⟨⟨proper, _⟩, rest⟩ := told_cons.mp told
    refine .list ?_
    simpa using ⟨.ofWord (by decide), IsName.legible proper, ih rest⟩

private theorem UnaryOperator.symbol_injective {operator other : UnaryOperator}
    (same : operator.symbol = other.symbol) : operator = other := by
  cases operator <;> cases other <;> simp_all [symbol]

private theorem BinaryOperator.symbol_injective {operator other : BinaryOperator}
    (same : operator.symbol = other.symbol) : operator = other := by
  cases operator <;> cases other <;> simp_all [symbol]

/-- No operator is written like a word that stands in front of other trees. -/
theorem UnaryOperator.symbol_ne (operator : UnaryOperator) :
    operator.symbol ≠ "group" ∧ operator.symbol ≠ "call" := by
  cases operator <;> decide

private theorem BinaryOperator.symbol_ne (operator : BinaryOperator) :
    operator.symbol ≠ "." ∧ operator.symbol ≠ "call" ∧ operator.symbol ≠ "=" := by
  cases operator <;> decide

/-- Lists with equal views are equal in every other view that the first one determines. -/
theorem map_eq_of_map_eq {α β γ : Type} {view : α → β} {other : α → γ} {items second : List α}
    (each : ∀ item ∈ items, ∀ twin ∈ second, view item = view twin → other item = other twin)
    (same : items.map view = second.map view) : items.map other = second.map other := by
  have related := forall₂_of_map_eq same each
  rwa [← List.forall₂_eq_eq_eq, List.forall₂_map_left_iff, List.forall₂_map_right_iff]

private theorem Expr.all_eq_of_toSExprs {expressions others : List Expr}
    (each : ∀ expression ∈ expressions, ∀ {other : Expr}, Told other.literals →
      expression.toSExpr = other.toSExpr → expression.withoutLines = other.withoutLines)
    (told : Told (Expr.allLiterals others))
    (same : Expr.toSExprs expressions = Expr.toSExprs others) :
    Expr.allWithoutLines expressions = Expr.allWithoutLines others := by
  rw [Expr.told_allLiterals] at told
  rw [Expr.toSExprs_eq, Expr.toSExprs_eq] at same
  rw [Expr.allWithoutLines_eq_map, Expr.allWithoutLines_eq_map]
  exact map_eq_of_map_eq (fun expression member other present =>
    each expression member (told other present)) same

/-- Names and values that are told apart come from one item only if they are the same. -/
theorem eq_of_shown {literal other : Literal} (told : Told [literal]) (also : Told [other])
    (same : literal.shown = other.shown) : literal = other := by
  obtain ⟨scanned, finite⟩ := told literal List.mem_cons_self
  obtain ⟨otherScanned, otherFinite⟩ := also other List.mem_cons_self
  exact Literal.shown_injective scanned finite otherScanned otherFinite same

private theorem Expr.eq_of_toSExpr {expression other : Expr} (told : Told expression.literals)
    (also : Told other.literals) (same : expression.toSExpr = other.toSExpr) :
    expression.withoutLines = other.withoutLines := by
  induction expression using Expr.induction generalizing other with
  | literal value line =>
    cases other <;> simp only [toSExpr, Value.toSExpr_eq, SExpr.atom.injEq, reduceCtorEq] at same
    case literal second _ =>
      cases eq_of_shown told also same
      rfl
    case identifier second _ => cases @eq_of_shown _ (.identifier second) told also same
  | identifier name line =>
    cases other <;> simp only [toSExpr, Value.toSExpr_eq, SExpr.atom.injEq, reduceCtorEq] at same
    case literal second _ => cases @eq_of_shown (.identifier name) _ told also same
    case identifier second _ =>
      subst same
      rfl
  | unary operator operand line ih =>
    cases other <;> simp [toSExpr, Value.toSExpr_eq] at same
    case unary =>
      rw [literals] at told also
      cases UnaryOperator.symbol_injective same.1
      simp only [withoutLines, ih told also same.2]
    case call => exact absurd same.1 operator.symbol_ne.2
    case parenthesized => exact absurd same.1 operator.symbol_ne.1
  | binary left operator right line ih rightIh =>
    obtain ⟨first, second⟩ := told_append.mp told
    cases other <;> simp [toSExpr, Value.toSExpr_eq] at same
    case binary =>
      obtain ⟨otherFirst, otherSecond⟩ := told_append.mp also
      cases BinaryOperator.symbol_injective same.1
      simp only [withoutLines, ih first otherFirst same.2.1, rightIh second otherSecond same.2.2]
    case member => exact absurd same.1 operator.symbol_ne.1
    case call => exact absurd same.1 operator.symbol_ne.2.1
    case assign => exact absurd same.1 operator.symbol_ne.2.2
  | member object name line ih =>
    obtain ⟨first, _⟩ := told_append.mp told
    cases other <;> simp [toSExpr, Value.toSExpr_eq] at same
    case binary operator _ _ => exact absurd same.1.symm operator.symbol_ne.1
    case member =>
      obtain ⟨otherFirst, _⟩ := told_append.mp also
      simp only [withoutLines, ih first otherFirst same.1, same.2]
  | call callee arguments line ih others =>
    obtain ⟨first, rest⟩ := told_append.mp told
    rw [Expr.told_allLiterals] at rest
    cases other <;> simp [toSExpr, Value.toSExpr_eq] at same
    case unary operator _ _ => exact absurd same.1.symm operator.symbol_ne.2
    case binary operator _ _ => exact absurd same.1.symm operator.symbol_ne.2.1
    case call =>
      obtain ⟨otherFirst, otherRest⟩ := told_append.mp also
      have all := Expr.all_eq_of_toSExprs
        (fun argument member => others argument member (rest argument member)) otherRest same.2
      simp only [withoutLines, ih first otherFirst same.1, all]
  | parenthesized inner line ih =>
    cases other <;> simp [toSExpr, Value.toSExpr_eq] at same
    case unary operator _ _ => exact absurd same.1.symm operator.symbol_ne.1
    case parenthesized =>
      rw [literals] at told also
      simp only [withoutLines, ih told also same]
  | assign name value line ih =>
    obtain ⟨_, rest⟩ := told_cons.mp told
    cases other <;> simp [toSExpr, Value.toSExpr_eq] at same
    case binary operator _ _ => exact absurd same.1.symm operator.symbol_ne.2.2
    case assign =>
      obtain ⟨_, otherRest⟩ := told_cons.mp also
      simp only [withoutLines, ih rest otherRest same.2, same.1]

/-- Words in front of statements. -/
def statementWords : List String :=
  ["block", "var", "return", "if", "while", "for-while", "break", "continue", "func"]

/-- Whether an item is taken for a statement other than an expression. -/
def SExpr.isStatement : SExpr → Bool
  | list (atom word :: _) => word ∈ statementWords
  | _ => false

def Stmt.isEvaluation : Stmt → Bool
  | .evaluate _ _ => true
  | _ => false

private theorem Expr.isStatement_toSExpr (expression : Expr) :
    expression.toSExpr.isStatement = false := by
  cases expression with
  | literal value line =>
    rw [toSExpr, Value.toSExpr_eq]
    rfl
  | unary operator operand line => cases operator <;> rfl
  | binary left operator right line => cases operator <;> rfl
  | _ => rfl

private theorem Stmt.toSExpr_declare (name : String) (type : DeclaredType)
    (initializer : Option Expr) (line : Nat) : (Stmt.declare name type initializer line).toSExpr =
      list (atom "var" :: atom name :: atom type.text :: initializer.toList.map Expr.toSExpr) := by
  cases initializer <;> rfl

private theorem Stmt.toSExpr_returns (value : Option Expr) (line : Nat) :
    (Stmt.returns value line).toSExpr =
      list (atom "return" :: value.toList.map Expr.toSExpr) := by
  cases value <;> rfl

private theorem Stmt.toSExpr_branch (condition : Expr) (whenTrue : Stmt) (whenFalse : Option Stmt)
    (line : Nat) : (Stmt.branch condition whenTrue whenFalse line).toSExpr =
      list (atom "if" :: condition.toSExpr :: whenTrue.toSExpr ::
        whenFalse.toList.map Stmt.toSExpr) := by
  cases whenFalse <;> rfl

/-- The word in front of a loop. -/
def loopWord (stepped : Bool) : String := if stepped then "for-while" else "while"

private theorem Stmt.toSExpr_loop (condition : Expr) (body : Stmt) (stepped : Bool) (line : Nat) :
    (Stmt.loop condition body stepped line).toSExpr =
      list [atom (loopWord stepped), condition.toSExpr, body.toSExpr] := rfl

private theorem Stmt.isStatement_toSExpr (statement : Stmt) :
    statement.toSExpr.isStatement = !statement.isEvaluation := by
  cases statement with
  | evaluate expression line => exact expression.isStatement_toSExpr
  | declare name type initializer line => cases initializer <;> rfl
  | returns value line => cases value <;> rfl
  | branch condition whenTrue whenFalse line => cases whenFalse <;> rfl
  | loop condition body stepped line => cases stepped <;> rfl
  | _ => rfl

private theorem Stmt.literals_branch (condition : Expr) (whenTrue : Stmt) (whenFalse : Option Stmt)
    (line : Nat) : (Stmt.branch condition whenTrue whenFalse line).literals =
      condition.literals ++ whenTrue.literals ++ Stmt.allLiterals whenFalse.toList := by
  cases whenFalse <;> simp [Stmt.literals, Stmt.allLiterals]

private theorem optional_eq_of_toSExpr {value other : Option Expr}
    (told : Told (optionalLiterals value)) (also : Told (optionalLiterals other))
    (same : value.toList.map Expr.toSExpr = other.toList.map Expr.toSExpr) :
    value.map Expr.withoutLines = other.map Expr.withoutLines := by
  cases value <;> cases other <;> simp at same ⊢
  exact Expr.eq_of_toSExpr told also same

private theorem told_optional {value : Option Expr} :
    Told (optionalLiterals value) ↔ ∀ expression ∈ value, Told expression.literals := by
  cases value <;> simp [optionalLiterals]

private theorem legible_optional {value : Option Expr} (told : Told (optionalLiterals value)) :
    ∀ expression ∈ value, expression.toSExpr.Legible :=
  fun expression member => expression.legible (told_optional.mp told expression member)

private theorem Parameter.legible {parameter : Parameter} (told : Told parameter.literals) :
    parameter.toSExpr.Legible := by
  have proper : IsName parameter.name := (told _ List.mem_cons_self).1
  have typed : IsName parameter.type.name := (told parameter.type.literal (by simp [literals])).1
  refine .list ?_
  simpa using ⟨proper.legible, DeclaredType.legible typed⟩

private theorem Stmt.legible {statement : Stmt} (told : Told statement.literals) :
    statement.toSExpr.Legible := by
  induction statement using Stmt.induction with
  | block statements line ih =>
    rw [literals, Stmt.told_allLiterals] at told
    rw [toSExpr, Stmt.toSExprs_eq]
    refine .list (List.forall_mem_cons.mpr ⟨.ofWord (by decide), ?_⟩)
    simpa using fun statement member => ih statement member (told statement member)
  | evaluate expression line => exact expression.legible told
  | declare name type initializer line =>
    obtain ⟨⟨proper, _⟩, ⟨typed, _⟩, initial⟩ : _ ∧ _ ∧ _ := by simpa [literals] using told
    rw [toSExpr_declare]
    refine .list (List.forall_mem_cons.mpr ⟨.ofWord (by decide), ?_⟩)
    simpa using ⟨IsName.legible proper, DeclaredType.legible typed, legible_optional initial⟩
  | returns value line =>
    rw [toSExpr_returns]
    refine .list (List.forall_mem_cons.mpr ⟨.ofWord (by decide), ?_⟩)
    simpa using legible_optional told
  | branch condition whenTrue whenFalse line ih others =>
    rw [literals_branch, told_append, told_append, Stmt.told_allLiterals] at told
    obtain ⟨⟨test, first⟩, second⟩ := told
    rw [toSExpr_branch]
    refine .list (List.forall_mem_cons.mpr ⟨.ofWord (by decide), ?_⟩)
    simpa using ⟨condition.legible test, ih first, fun other member =>
      others other member (second other (by simpa using member))⟩
  | loop condition body stepped line ih =>
    obtain ⟨test, inner⟩ := told_append.mp told
    have word : (atom (loopWord stepped)).Legible := by
      cases stepped <;> exact .ofWord (by decide)
    rw [toSExpr_loop]
    refine .list ?_
    simpa using ⟨word, condition.legible test, ih inner⟩
  | leave line => exact .list (by simpa using .ofWord (by decide))
  | proceed line => exact .list (by simpa using .ofWord (by decide))
  | function name parameters result body bodyLine line ih =>
    obtain ⟨⟨proper, _⟩, ⟨typed, _⟩, listed, inner⟩ : _ ∧ _ ∧ _ ∧ _ := by
      simpa [literals] using told
    rw [Stmt.told_allLiterals] at inner
    have shown : (list (parameters.map Parameter.toSExpr)).Legible := by
      refine .list (List.forall_mem_map.mpr fun parameter member => ?_)
      exact Parameter.legible (told_parameters.mp listed parameter member)
    rw [toSExpr, Stmt.toSExprs_eq]
    refine .list (List.forall_mem_cons.mpr ⟨.ofWord (by decide), ?_⟩)
    simpa using ⟨IsName.legible proper, shown, DeclaredType.legible typed,
      fun statement member => ih statement member (inner statement member)⟩

private theorem Stmt.all_eq_of_toSExprs {statements others : List Stmt}
    (each : ∀ statement ∈ statements, ∀ {other : Stmt}, Told other.literals →
      statement.toSExpr = other.toSExpr → statement.withoutLines = other.withoutLines)
    (told : Told (Stmt.allLiterals others))
    (same : Stmt.toSExprs statements = Stmt.toSExprs others) :
    Stmt.allWithoutLines statements = Stmt.allWithoutLines others := by
  rw [Stmt.told_allLiterals] at told
  rw [Stmt.toSExprs_eq, Stmt.toSExprs_eq] at same
  rw [Stmt.allWithoutLines_eq_map, Stmt.allWithoutLines_eq_map]
  exact map_eq_of_map_eq (fun statement member other present =>
    each statement member (told other present)) same

private theorem Parameter.eq_of_toSExpr {parameter other : Parameter}
    (told : Told parameter.literals) (also : Told other.literals)
    (same : parameter.toSExpr = other.toSExpr) :
    parameter = other := by
  obtain ⟨name, type⟩ := parameter
  obtain ⟨second, otherType⟩ := other
  simp only [toSExpr, SExpr.list.injEq, List.cons.injEq, SExpr.atom.injEq, and_true] at same
  have typed : IsName type.name := (told type.literal (by simp [literals])).1
  have otherTyped : IsName otherType.name := (also otherType.literal (by simp [literals])).1
  rw [same.1, DeclaredType.text_injective typed otherTyped same.2]

private theorem parameters_eq_of_toSExpr {parameters others : List Parameter}
    (told : Told (parameters.flatMap Parameter.literals))
    (also : Told (others.flatMap Parameter.literals))
    (same : parameters.map Parameter.toSExpr = others.map Parameter.toSExpr) :
    parameters = others := by
  rw [told_parameters] at told also
  rw [← parameters.map_id, ← others.map_id]
  exact map_eq_of_map_eq (fun parameter member other present =>
    Parameter.eq_of_toSExpr (told parameter member) (also other present)) same

/-- Statements of one kind whose parts become the same items. -/
inductive Stmt.Matches : Stmt → Stmt → Prop where
  | block {statements others : List Stmt} {line second : Nat}
      (same : Stmt.toSExprs statements = Stmt.toSExprs others) :
      Matches (.block statements line) (.block others second)
  | evaluate {expression other : Expr} {line second : Nat}
      (same : expression.toSExpr = other.toSExpr) :
      Matches (.evaluate expression line) (.evaluate other second)
  | declare {name : String} {type otherType : DeclaredType} {value other : Option Expr}
      {line second : Nat} (types : type.text = otherType.text)
      (values : value.toList.map Expr.toSExpr = other.toList.map Expr.toSExpr) :
      Matches (.declare name type value line) (.declare name otherType other second)
  | returns {value other : Option Expr} {line second : Nat}
      (values : value.toList.map Expr.toSExpr = other.toList.map Expr.toSExpr) :
      Matches (.returns value line) (.returns other second)
  | branch {condition test : Expr} {whenTrue first : Stmt} {whenFalse other : Option Stmt}
      {line second : Nat} (conditions : condition.toSExpr = test.toSExpr)
      (branches : whenTrue.toSExpr = first.toSExpr)
      (others : Stmt.toSExprs whenFalse.toList = Stmt.toSExprs other.toList) :
      Matches (.branch condition whenTrue whenFalse line) (.branch test first other second)
  | loop {condition test : Expr} {body inner : Stmt} {stepped : Bool} {line second : Nat}
      (conditions : condition.toSExpr = test.toSExpr) (bodies : body.toSExpr = inner.toSExpr) :
      Matches (.loop condition body stepped line) (.loop test inner stepped second)
  | leave {line second : Nat} : Matches (.leave line) (.leave second)
  | proceed {line second : Nat} : Matches (.proceed line) (.proceed second)
  | function {name : String} {parameters others : List Parameter} {result other : DeclaredType}
      {body inner : List Stmt} {bodyLine line otherLine second : Nat}
      (listed : parameters.map Parameter.toSExpr = others.map Parameter.toSExpr)
      (results : result.text = other.text) (bodies : Stmt.toSExprs body = Stmt.toSExprs inner) :
      Matches (.function name parameters result body bodyLine line)
        (.function name others other inner otherLine second)

/-- A statement is known by the word in front of its items. -/
theorem Stmt.matches_of_toSExpr {statement other : Stmt}
    (same : statement.toSExpr = other.toSExpr) : statement.Matches other := by
  have kinds : statement.isEvaluation = other.isEvaluation := by
    rw [← Bool.not_inj_iff, ← isStatement_toSExpr, same, isStatement_toSExpr]
  cases statement <;> cases other <;> simp only [isEvaluation, reduceCtorEq] at kinds <;>
    simp [toSExpr, toSExpr_declare, toSExpr_returns, toSExpr_branch, eq_ite_iff, ite_eq_iff] at same
  case block => exact .block same
  case evaluate => exact .evaluate same
  case declare =>
    obtain ⟨rfl, types, values⟩ := same
    exact .declare types values
  case returns => exact .returns same
  case branch =>
    obtain ⟨conditions, branches, others⟩ := same
    exact .branch conditions branches (by simpa [Stmt.toSExprs_eq] using others)
  case loop =>
    obtain ⟨words, conditions, bodies⟩ := same
    rcases words with ⟨rfl, rfl⟩ | ⟨rfl, rfl⟩
    · exact .loop conditions bodies
    · exact .loop conditions bodies
  case leave => exact .leave
  case proceed => exact .proceed
  case function =>
    obtain ⟨rfl, listed, results, bodies⟩ := same
    exact .function listed results bodies

private theorem Stmt.eq_of_toSExpr {statement other : Stmt} (told : Told statement.literals)
    (also : Told other.literals) (same : statement.toSExpr = other.toSExpr) :
    statement.withoutLines = other.withoutLines := by
  induction statement using Stmt.induction generalizing other with
  | block statements line ih =>
    cases matches_of_toSExpr same with
    | block items =>
      rw [literals] at told also
      rw [told_allLiterals] at told
      have all := all_eq_of_toSExprs
        (fun statement member => ih statement member (told statement member)) also items
      simp only [withoutLines, all]
  | evaluate expression line =>
    cases matches_of_toSExpr same with
    | evaluate items =>
      rw [literals] at told also
      simp only [withoutLines, Expr.eq_of_toSExpr told also items]
  | declare name type initializer line =>
    cases matches_of_toSExpr same with
    | declare types values =>
      simp only [literals, told_cons] at told also
      have typed := DeclaredType.text_injective told.2.1.1 also.2.1.1 types
      simp only [withoutLines, typed, optional_eq_of_toSExpr told.2.2 also.2.2 values]
  | returns value line =>
    cases matches_of_toSExpr same with
    | returns values =>
      rw [literals] at told also
      simp only [withoutLines, optional_eq_of_toSExpr told also values]
  | branch condition whenTrue whenFalse line ih others =>
    cases matches_of_toSExpr same with
    | @branch _ _ _ _ _ otherwise _ _ conditions branches alternatives =>
      rw [literals_branch, told_append, told_append] at told also
      obtain ⟨⟨test, first⟩, second⟩ := told
      obtain ⟨⟨otherTest, otherFirst⟩, otherSecond⟩ := also
      rw [told_allLiterals] at second
      have all := all_eq_of_toSExprs (fun statement member =>
        others statement (by simpa using member) (second statement member)) otherSecond alternatives
      have tests := Expr.eq_of_toSExpr test otherTest conditions
      have firsts := ih first otherFirst branches
      cases whenFalse <;> cases otherwise <;> simp_all [withoutLines, allWithoutLines]
  | loop condition body stepped line ih =>
    cases matches_of_toSExpr same with
    | loop conditions bodies =>
      obtain ⟨test, inner⟩ := told_append.mp told
      obtain ⟨otherTest, otherInner⟩ := told_append.mp also
      simp only [withoutLines, Expr.eq_of_toSExpr test otherTest conditions,
        ih inner otherInner bodies]
  | leave line =>
    cases matches_of_toSExpr same with
    | leave => rfl
  | proceed line =>
    cases matches_of_toSExpr same with
    | proceed => rfl
  | function name parameters result body bodyLine line ih =>
    cases matches_of_toSExpr same with
    | function listed results bodies =>
      simp only [literals, told_cons, told_append] at told also
      obtain ⟨_, ⟨typed, _⟩, given, inner⟩ := told
      obtain ⟨_, ⟨otherTyped, _⟩, otherGiven, otherInner⟩ := also
      rw [told_allLiterals] at inner
      have all := all_eq_of_toSExprs
        (fun statement member => ih statement member (inner statement member)) otherInner bodies
      simp only [withoutLines, parameters_eq_of_toSExpr given otherGiven listed,
        DeclaredType.text_injective typed otherTyped results, all]

private theorem Expr.toSExprs_withoutLines {expressions : List Expr}
    (each : ∀ expression ∈ expressions, expression.withoutLines.toSExpr = expression.toSExpr) :
    Expr.toSExprs (Expr.allWithoutLines expressions) = Expr.toSExprs expressions := by
  rw [Expr.allWithoutLines_eq_map, Expr.toSExprs_eq, Expr.toSExprs_eq, List.map_map]
  exact List.map_congr_left each

private theorem Expr.toSExpr_withoutLines (expression : Expr) :
    expression.withoutLines.toSExpr = expression.toSExpr := by
  induction expression using Expr.induction with
  | call callee arguments line ih others =>
    simp only [withoutLines, toSExpr, ih, Expr.toSExprs_withoutLines others]
  | _ => simp only [withoutLines, toSExpr, *]

private theorem Stmt.toSExprs_withoutLines {statements : List Stmt}
    (each : ∀ statement ∈ statements, statement.withoutLines.toSExpr = statement.toSExpr) :
    Stmt.toSExprs (Stmt.allWithoutLines statements) = Stmt.toSExprs statements := by
  rw [Stmt.allWithoutLines_eq_map, Stmt.toSExprs_eq, Stmt.toSExprs_eq, List.map_map]
  exact List.map_congr_left each

private theorem Stmt.toSExpr_withoutLines (statement : Stmt) :
    statement.withoutLines.toSExpr = statement.toSExpr := by
  induction statement using Stmt.induction with
  | block statements line ih =>
    simp only [withoutLines, toSExpr, Stmt.toSExprs_withoutLines ih]
  | declare name type initializer line =>
    cases initializer <;> simp only [withoutLines, toSExpr, Option.map_none, Option.map_some,
      Expr.toSExpr_withoutLines]
  | returns value line =>
    cases value <;> simp only [withoutLines, toSExpr, Option.map_none, Option.map_some,
      Expr.toSExpr_withoutLines]
  | branch condition whenTrue whenFalse line ih others =>
    cases whenFalse with
    | none => simp only [withoutLines, toSExpr, Expr.toSExpr_withoutLines, ih]
    | some other =>
      simp only [withoutLines, toSExpr, Expr.toSExpr_withoutLines, ih, others other rfl]
  | function name parameters result body bodyLine line ih =>
    simp only [withoutLines, toSExpr, Stmt.toSExprs_withoutLines ih]
  | _ => simp only [withoutLines, toSExpr, Expr.toSExpr_withoutLines, *]

private theorem Program.toSExprs_withoutLines (program : Program) :
    Stmt.toSExprs program.withoutLines.declarations = Stmt.toSExprs program.declarations :=
  Stmt.toSExprs_withoutLines fun statement _ => statement.toSExpr_withoutLines

private theorem Program.toList_sexp (program : Program) :
    program.sexp.toList =
      (Stmt.toSExprs program.declarations).flatMap fun item => item.render.toList ++ ['\n'] := by
  rw [sexp, String.toList_join, Stmt.toSExprs_eq, List.flatMap_map, List.flatMap_map]
  simp only [String.toList_append]
  rfl

/-- Programs whose names and values can be told apart are dumped alike only if they are the same
up to line numbers. -/
theorem Program.sexp_eq_iff {program other : Program} (told : Told program.literals)
    (also : Told other.literals) :
    program.sexp = other.sexp ↔ program.withoutLines = other.withoutLines := by
  constructor
  · intro same
    have texts := congrArg String.toList same
    rw [toList_sexp, toList_sexp] at texts
    have toldEach := Stmt.told_allLiterals.mp told
    have alsoEach := Stmt.told_allLiterals.mp also
    have legible {statements : List Stmt}
        (each : ∀ statement ∈ statements, Told statement.literals) :
        ∀ item ∈ Stmt.toSExprs statements, item.Legible := by
      rw [Stmt.toSExprs_eq]
      exact List.forall_mem_map.mpr fun statement member => Stmt.legible (each statement member)
    have items := SExpr.lines_inj (legible toldEach) (legible alsoEach) texts
    rw [withoutLines, withoutLines, Stmt.all_eq_of_toSExprs
      (fun statement member => Stmt.eq_of_toSExpr (toldEach statement member)) also items]
  · intro same
    apply String.toList_inj.mp
    rw [toList_sexp, toList_sexp, ← program.toSExprs_withoutLines, same,
      other.toSExprs_withoutLines]

/-- The names and values in a program that was read were written in its source. -/
theorem NamedSource.program_scanned {source : NamedSource} {program : Program}
    (success : source.program = .ok program) : ∀ literal ∈ program.literals, literal.Scanned := by
  rw [NamedSource.program] at success
  cases found : source.tokens with
  | error error =>
    rw [found] at success
    cases success
  | ok tokens =>
    rw [found] at success
    have parsed : Grammar.parse tokens = .ok program := Except.ok_of_mapError success
    have scanned := scan_of_tokens found
    obtain ⟨front, last, rfl, fits, ends, each⟩ := Token.scan_wellFormed scanned
    obtain ⟨written, spelled, rfl⟩ := Grammar.parse_reads each fits ends parsed
    intro literal member
    rcases List.mem_cons.mp (written.literals_desugar _ member) with rfl | present
    · trivial
    · rw [← spelled] at present
      obtain ⟨symbol, inside, known⟩ := List.mem_filterMap.mp present
      obtain ⟨token, among, rfl⟩ := List.mem_map.mp inside
      exact Token.scan_scanned scanned token (List.mem_append_left _ among) literal known

/-- The dump of a program is faithful. Of two programs that were read from sources, and in which
no number is infinite, the dumps are the same if and only if the programs are, up to line
numbers. -/
theorem NamedSource.sexp_faithful {source other : NamedSource} {program second : Program}
    (read : source.program = .ok program) (also : other.program = .ok second)
    (finite : ∀ literal ∈ program.literals, literal.Finite)
    (alsoFinite : ∀ literal ∈ second.literals, literal.Finite) :
    program.sexp = second.sexp ↔ program.withoutLines = second.withoutLines :=
  Program.sexp_eq_iff
    (fun literal member => ⟨program_scanned read literal member, finite literal member⟩)
    (fun literal member => ⟨program_scanned also literal member, alsoFinite literal member⟩)

/-- A source with a loop, a number and a text that looks like a list. -/
def spaced : NamedSource :=
  ⟨"spaced", "func main(n: int*): void \x7b\n" ++
    "  for (; n < 2.5; n = n + 1) \x7b print(\"(n\"); \x7d\n\x7d"⟩

/-- The same source on one line, with the number in another spelling. -/
def packed : NamedSource :=
  ⟨"packed", "func main(n:int*):void\x7bfor(;n<2.50;n=n+1)\x7bprint(\"(n\");\x7d\x7d"⟩

theorem packed_faithful : ∃ program second,
    spaced.program = .ok program ∧ packed.program = .ok second ∧
      (∀ literal ∈ program.literals, literal.Finite) ∧
      (∀ literal ∈ second.literals, literal.Finite) ∧
      program.sexp = second.sexp ∧ program.withoutLines = second.withoutLines := by
  let finite (program : Program) : Bool := decide (∀ literal ∈ program.literals, literal.Finite)
  have exists_program (source : NamedSource) (dump : String)
      (found : (source.program.toOption.map fun program => (finite program, program.sexp)) =
        some (true, dump)) :
      ∃ program, source.program = .ok program ∧
        (∀ literal ∈ program.literals, literal.Finite) ∧ program.sexp = dump := by
    cases read : source.program with
    | error error =>
      rw [read] at found
      cases found
    | ok program =>
      rw [read] at found
      obtain ⟨each, same⟩ := Prod.mk.inj (Option.some.inj found)
      exact ⟨program, rfl, of_decide_eq_true each, same⟩
  let dump := "(func main ((n int*)) void (for-while (< n 2.5) " ++
    "(block (block (call print \"(n\")) (= n (+ n 1)))))\n"
  obtain ⟨program, read, each, same⟩ := exists_program spaced dump (by decide +kernel)
  obtain ⟨second, also, others, again⟩ := exists_program packed dump (by decide +kernel)
  have dumps : program.sexp = second.sexp := same.trans again.symm
  exact ⟨program, second, read, also, each, others, dumps,
    (NamedSource.sexp_faithful read also each others).mp dumps⟩

end Scriptlet
