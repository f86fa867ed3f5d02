import Scriptlet.Proofs.Except
import Scriptlet.Proofs.Grammar.ExpressionSound
import Scriptlet.Proofs.Grammar.StatementComplete
import Scriptlet.Proofs.Surface.Shape

/-! Whatever is read as a statement or a declaration is spelled by one, and whatever is read
as a program is spelled by a program. A statement that ends with an `if` without `else` was
read only because no `else` stands behind it. -/
namespace Scriptlet.Grammar

open Scriptlet.Grammar.Parser
open Scriptlet.Grammar.Stream (reads_nil)

variable {stream rest : Stream}

private theorem stars_reads (count : Nat) {stars : Nat} (proper : stream.WellFormed)
    (success : Grammar.stars count stream = .ok (stars, rest)) :
    stream.Reads (List.replicate stars (.mark .star)) rest := by
  induction count generalizing stream stars with
  | zero =>
    cases success
    exact reads_nil.mpr rfl
  | succ count ih =>
    simp only [Grammar.stars, bind_eq_ok] at success
    obtain ⟨found, middle, taken, success⟩ := success
    rcases take?_reads proper rfl taken with ⟨rfl, rfl, _⟩ | ⟨⟨token, rfl⟩, mark⟩
    · cases success
      exact reads_nil.mpr rfl
    · simp only [bind_eq_ok] at success
      obtain ⟨fewer, final, read, success⟩ := success
      cases success
      exact mark.append (ih (mark.wellFormed proper) read)

private theorem declaredType_reads {type : DeclaredType} (proper : stream.WellFormed)
    (success : declaredType stream = .ok (type, rest)) : stream.Reads type.spelling rest := by
  simp only [declaredType, bind_eq_ok, remaining_apply] at success
  obtain ⟨name, middle, read, _, _, counted, stars, _, starred, success⟩ := success
  cases counted
  cases success
  have named := name_reads proper read
  exact named.append (stars_reads _ (named.wellFormed proper) starred)

private theorem parameterList_reads (allowed : Nat) {parameters : List Parameter}
    (proper : stream.WellFormed) (success : parameterList allowed stream = .ok (parameters, rest)) :
    parameters ≠ [] ∧ parameters.length ≤ allowed ∧
      stream.Reads (Surface.separated (parameters.map Parameter.spelling)) rest := by
  induction allowed generalizing stream parameters with
  | zero => cases success
  | succ allowed ih =>
    simp only [parameterList, bind_eq_ok] at success
    obtain ⟨name, named, read, _, typed, marked, type, middle, typing, found, next, taken,
      success⟩ := success
    have text := name_reads proper read
    have colon := expect_reads (text.wellFormed proper) rfl marked
    have spelled := declaredType_reads (colon.wellFormed (text.wellFormed proper)) typing
    have parameter : stream.Reads (Parameter.spelling ⟨name, type⟩) middle :=
      text.append (colon.append spelled)
    have inside := parameter.wellFormed proper
    rcases take?_reads inside rfl taken with ⟨rfl, rfl, _⟩ | ⟨⟨token, rfl⟩, comma⟩
    · cases success
      exact ⟨by simp, by simp, parameter⟩
    · simp only [bind_eq_ok] at success
      obtain ⟨others, final, read, success⟩ := success
      cases success
      obtain ⟨some, few, following⟩ := ih (comma.wellFormed inside) read
      obtain ⟨second, others, rfl⟩ := List.exists_cons_of_ne_nil some
      exact ⟨by simp, Nat.succ_le_succ few, parameter.append (comma.append following)⟩

private theorem parameters_reads {parameters : List Parameter} (proper : stream.WellFormed)
    (success : Grammar.parameters stream = .ok (parameters, rest)) :
    parameters.length ≤ 16 ∧ stream.Reads
      (Surface.separated (parameters.map Parameter.spelling) ++ [.mark .rightParen]) rest := by
  rw [Grammar.parameters, bind_apply] at success
  by_cases atOnce : stream.current.kind = .rightParen
  · simp only [check_apply, atOnce, decide_true, ↓reduceIte, bind_eq_ok, pure_apply] at success
    obtain ⟨_, _, read, _, _, closed, success⟩ := success
    cases read
    cases success
    exact ⟨by simp, expect_reads proper rfl closed⟩
  · simp only [check_apply, atOnce, decide_false, Bool.false_eq_true, ↓reduceIte,
      bind_eq_ok] at success
    obtain ⟨list, closing, read, _, _, closed, success⟩ := success
    cases success
    obtain ⟨_, few, spelled⟩ := parameterList_reads maxArguments proper read
    exact ⟨few, spelled.append (expect_reads (spelled.wellFormed proper) rfl closed)⟩

private theorem variableDeclaration_reads {needed : Bool} {tree : Stmt} (proper : stream.WellFormed)
    (success : variableDeclaration needed stream = .ok (tree, rest)) :
    ∃ name type value, (∀ expression ∈ value, Surface.Expr.WellFormed expression) ∧
      (needed = true → value.isSome = true) ∧
      stream.Reads (Surface.declarationSpelling name type value) rest ∧
      tree = Surface.declarationTree name type value stream.lines := by
  simp only [variableDeclaration, bind_eq_ok, peek_apply] at success
  obtain ⟨_, _, peeked, name, named, read, _, typed, marked, type, middle, typing, found, next,
    taken, success⟩ := success
  cases peeked
  have text := name_reads proper read
  have colon := expect_reads (text.wellFormed proper) rfl marked
  have spelled := declaredType_reads (colon.wellFormed (text.wellFormed proper)) typing
  have inside := spelled.wellFormed (colon.wellFormed (text.wellFormed proper))
  have front {symbols : List Symbol} {last : Stream} (behind : middle.Reads symbols last) :
      stream.Reads (.name name :: .mark .colon :: (type.spelling ++ symbols)) last :=
    text.append (colon.append (spelled.append behind))
  rcases take?_reads inside rfl taken with ⟨rfl, rfl, _⟩ | ⟨⟨token, rfl⟩, mark⟩
  · cases needed with
    | true => cases success
    | false =>
      simp only [Bool.false_eq_true, ↓reduceIte, bind_eq_ok, pure_apply] at success
      obtain ⟨_, _, given, _, _, closed, success⟩ := success
      cases given
      cases success
      refine ⟨name, type, none, by simp, by simp, front (expect_reads inside rfl closed), ?_⟩
      rw [Stream.current_line]
      rfl
  · simp only [bind_eq_ok, pure_apply] at success
    obtain ⟨value, final, read, _, _, given, _, _, closed, success⟩ := success
    cases given
    cases success
    obtain ⟨expression, wellFormed, _, valued, rfl⟩ :=
      expression_reads _ _ _ (mark.wellFormed inside) read
    have closing := expect_reads (valued.wellFormed (mark.wellFormed inside)) rfl closed
    have typeLines : typed.lines = stream.lines.drop 2 := by
      rw [colon.lines, text.lines, List.drop_drop]
      rfl
    refine ⟨name, type, some expression, by rintro _ ⟨⟩; exact wellFormed, fun _ => rfl,
      front (mark.append (valued.append closing)), ?_⟩
    rw [Stream.current_line, mark.lines, spelled.lines, typeLines]
    rfl

private theorem expressionStatement_reads {tree : Stmt} (proper : stream.WellFormed)
    (success : expressionStatement stream = .ok (tree, rest)) :
    ∃ expression : Surface.Expr, expression.WellFormed ∧
      stream.Reads (expression.spelling ++ [.mark .semicolon]) rest ∧
      tree = .evaluate (expression.desugar stream.lines) (stream.lines.headD 0) := by
  simp only [expressionStatement, bind_eq_ok] at success
  obtain ⟨value, middle, read, _, _, closed, success⟩ := success
  cases success
  obtain ⟨expression, wellFormed, _, spelled, rfl⟩ := expression_reads _ _ _ proper read
  exact ⟨expression, wellFormed,
    spelled.append (expect_reads (spelled.wellFormed proper) rfl closed),
    by rw [Surface.Expr.line_desugar]⟩

private theorem expressionUnless_reads {kind : Kind} {result : Option Expr}
    (proper : stream.WellFormed) (success : expressionUnless kind stream = .ok (result, rest)) :
    ∃ value : Option Surface.Expr, (∀ expression ∈ value, expression.WellFormed) ∧
      stream.Reads (Surface.optionalSpelling value) rest ∧
      result = value.map fun expression => expression.desugar stream.lines := by
  rw [expressionUnless, bind_apply] at success
  by_cases missing : stream.current.kind = kind
  · simp only [check_apply, missing, decide_true, ↓reduceIte, pure_apply] at success
    cases success
    exact ⟨none, by simp, reads_nil.mpr rfl, rfl⟩
  · simp only [check_apply, missing, decide_false, Bool.false_eq_true, ↓reduceIte, bind_eq_ok,
      pure_apply] at success
    obtain ⟨tree, middle, read, success⟩ := success
    cases success
    obtain ⟨expression, wellFormed, _, spelled, rfl⟩ := expression_reads _ _ _ proper read
    exact ⟨some expression, by rintro _ ⟨⟩; exact wellFormed, spelled, rfl⟩

/-- A condition is read behind its keyword. -/
theorem condition_reads {keyword : Kind} {place : Place} {tree : Expr} (proper : stream.WellFormed)
    (found : stream.current.kind = keyword) (mark : keyword.isMark = true)
    (success : condition keyword place stream.advance = .ok (tree, rest)) :
    ∃ test : Surface.Expr, test.WellFormed ∧
      stream.Reads (Surface.conditionSpelling keyword test) rest ∧
      tree = test.desugar (stream.lines.drop 2) := by
  have word := proper.reads_mark found mark
  simp only [condition, bind_eq_ok] at success
  obtain ⟨_, inner, opened, _, middle, read, _, _, closed, success⟩ := success
  cases success
  have opening := expect_reads (word.wellFormed proper) rfl opened
  have inside := opening.wellFormed (word.wellFormed proper)
  obtain ⟨test, wellFormed, _, spelled, rfl⟩ := expression_reads _ _ _ inside read
  have closing := expect_reads (spelled.wellFormed inside) rfl closed
  refine ⟨test, wellFormed, word.append (opening.append (spelled.append closing)), ?_⟩
  rw [opening.lines, word.lines, List.drop_drop]
  rfl

/-- Between two places of a stream, a statement with the given tree is spelled, or a
declaration where declarations may stand. -/
def SpellsStatement (declarations inLoop : Bool) (stream rest : Stream) (tree : Stmt) : Prop :=
  ∃ statement : Surface.Stmt, statement.WellFormed inLoop ∧
    (statement.isDeclaration = true → declarations = true) ∧
    stream.Reads statement.spelling rest ∧
    (statement.endsOpen = true → rest.current.kind ≠ .elseWord) ∧
    tree = statement.desugar stream.lines

def ReadsStatements (parser : Bool → Parser Stmt) (declarations : Bool) : Prop :=
  ∀ (inLoop : Bool) (stream rest : Stream) (tree : Stmt), stream.WellFormed →
    parser inLoop stream = .ok (tree, rest) → SpellsStatement declarations inLoop stream rest tree

variable {declaration statement : Bool → Parser Stmt} {inLoop : Bool}

theorem SpellsStatement.closed {declarations : Bool} {written : Surface.Stmt} {tree : Stmt}
    (wellFormed : written.WellFormed inLoop) (noDeclaration : written.isDeclaration = false)
    (closed : written.endsOpen = false) (spelled : stream.Reads written.spelling rest)
    (same : tree = written.desugar stream.lines) :
    SpellsStatement declarations inLoop stream rest tree :=
  ⟨written, wellFormed, by simp [noDeclaration], spelled, by simp [closed], same⟩

private theorem blockItems_reads (items : ReadsStatements declaration true) (count : Nat)
    {trees : List Stmt} (proper : stream.WellFormed)
    (success : blockItems (declaration inLoop) count stream = .ok (trees, rest)) :
    ∃ statements : List Surface.Stmt, (∀ statement ∈ statements, statement.WellFormed inLoop) ∧
      stream.Reads (Surface.Stmt.spellings statements) rest ∧
      trees = Surface.Stmt.desugarAll statements stream.lines := by
  induction count generalizing stream trees with
  | zero =>
    cases success
    exact ⟨[], by simp, reads_nil.mpr rfl, rfl⟩
  | succ count ih =>
    rw [blockItems, bind_apply] at success
    simp only [peek_apply] at success
    by_cases ends : stream.current.kind = .rightBrace ∨ stream.current.kind = .endOfFile
    · simp only [ends, ↓reduceIte, pure_apply] at success
      cases success
      exact ⟨[], by simp, reads_nil.mpr rfl, rfl⟩
    · simp only [ends, ↓reduceIte, bind_eq_ok] at success
      obtain ⟨tree, middle, read, others, final, following, success⟩ := success
      cases success
      obtain ⟨first, wellFormed, _, spelled, _, rfl⟩ := items _ _ _ _ proper read
      obtain ⟨statements, each, behind, rfl⟩ := ih (spelled.wellFormed proper) following
      refine ⟨first :: statements, List.forall_mem_cons.mpr ⟨wellFormed, each⟩,
        spelled.append behind, ?_⟩
      rw [spelled.lines]
      rfl

private theorem blockBody_reads (items : ReadsStatements declaration true) {trees : List Stmt}
    (proper : stream.WellFormed)
    (success : blockBody (declaration inLoop) stream = .ok (trees, rest)) :
    ∃ statements : List Surface.Stmt, (∀ statement ∈ statements, statement.WellFormed inLoop) ∧
      stream.Reads (Surface.Stmt.spellings statements ++ [.mark .rightBrace]) rest ∧
      trees = Surface.Stmt.desugarAll statements stream.lines := by
  simp only [blockBody, bind_eq_ok, remaining_apply] at success
  obtain ⟨_, _, counted, _, _, read, _, _, closed, success⟩ := success
  cases counted
  cases success
  obtain ⟨statements, each, spelled, same⟩ := blockItems_reads items _ proper read
  exact ⟨statements, each, spelled.append (expect_reads (spelled.wellFormed proper) rfl closed),
    same⟩

/-- Looking for a declaration reads nothing. -/
theorem atDeclaration_looks (stream : Stream) :
    ∃ declared, atDeclaration stream = .ok (declared, stream) :=
  ⟨_, atDeclaration_apply stream⟩

private theorem forInitializer_reads {tree : Option Stmt} (proper : stream.WellFormed)
    (success : forInitializer stream = .ok (tree, rest)) :
    ∃ initializer : Surface.Initializer, initializer.WellFormed ∧
      stream.Reads initializer.spelling rest ∧ tree = initializer.desugar stream.lines := by
  simp only [forInitializer, bind_eq_ok] at success
  obtain ⟨found, middle, taken, success⟩ := success
  rcases take?_reads proper rfl taken with ⟨rfl, rfl, _⟩ | ⟨⟨token, rfl⟩, mark⟩
  · obtain ⟨declared, looked⟩ := atDeclaration_looks stream
    simp only [bind_apply, looked] at success
    cases declared
    case false =>
      simp only [Bool.false_eq_true, ↓reduceIte, bind_eq_ok] at success
      obtain ⟨_, _, read, success⟩ := success
      cases success
      obtain ⟨value, wellFormed, spelled, rfl⟩ := expressionStatement_reads proper read
      exact ⟨.expression value, wellFormed, spelled, rfl⟩
    case true =>
      simp only [↓reduceIte, bind_eq_ok] at success
      obtain ⟨_, _, read, success⟩ := success
      cases success
      obtain ⟨name, type, value, wellFormed, given, spelled, rfl⟩ :=
        variableDeclaration_reads proper read
      obtain ⟨value, rfl⟩ := Option.isSome_iff_exists.mp (given rfl)
      exact ⟨.declaration name type value, wellFormed value rfl, spelled, rfl⟩
  · cases success
    exact ⟨.absent, trivial, mark, rfl⟩

private theorem forCondition_reads {tree : Expr} (proper : stream.WellFormed)
    (success : forCondition stream = .ok (tree, rest)) :
    ∃ test : Option Surface.Expr, (∀ expression ∈ test, expression.WellFormed) ∧
      stream.Reads (Surface.optionalSpelling test ++ [.mark .semicolon]) rest ∧
      tree = Surface.conditionTree test stream.lines := by
  simp only [forCondition, bind_eq_ok, peek_apply] at success
  obtain ⟨_, _, peeked, _, middle, read, _, _, closed, success⟩ := success
  cases peeked
  cases success
  obtain ⟨test, wellFormed, spelled, rfl⟩ := expressionUnless_reads proper read
  refine ⟨test, wellFormed,
    spelled.append (expect_reads (spelled.wellFormed proper) rfl closed), ?_⟩
  rw [Stream.current_line]
  cases test <;> rfl

private theorem returnStatement_reads {line : Nat} {tree : Stmt} (proper : stream.WellFormed)
    (success : returnStatement line stream = .ok (tree, rest)) :
    ∃ value : Option Surface.Expr, (∀ expression ∈ value, expression.WellFormed) ∧
      stream.Reads (Surface.optionalSpelling value ++ [.mark .semicolon]) rest ∧
      tree = .returns (value.map fun result => result.desugar stream.lines) line := by
  simp only [returnStatement, bind_eq_ok] at success
  obtain ⟨_, _, read, _, _, closed, success⟩ := success
  cases success
  obtain ⟨value, wellFormed, spelled, rfl⟩ := expressionUnless_reads proper read
  exact ⟨value, wellFormed, spelled.append (expect_reads (spelled.wellFormed proper) rfl closed),
    rfl⟩

/-- The clauses of a `for` loop are read behind its keyword, and then its body, which stands
in the loop. -/
theorem forStatement_reads (statements : ReadsStatements statement false) {tree : Stmt}
    (proper : stream.WellFormed) (found : stream.current.kind = .forWord)
    (success : forStatement stream.current.line (statement true) stream.advance =
      .ok (tree, rest)) : SpellsStatement false inLoop stream rest tree := by
  have word := proper.reads_mark found rfl
  simp only [forStatement, bind_eq_ok] at success
  obtain ⟨_, clauses, opened, _, testing, initial, _, stepping, tested, _, final, stepped, _,
    middle, closed, _, _, read, success⟩ := success
  cases success
  have opening := expect_reads (word.wellFormed proper) rfl opened
  have clausesFormed := opening.wellFormed (word.wellFormed proper)
  obtain ⟨initializer, start, first, rfl⟩ := forInitializer_reads clausesFormed initial
  have testingFormed := first.wellFormed clausesFormed
  obtain ⟨test, testFormed, condition, rfl⟩ := forCondition_reads testingFormed tested
  have steppingFormed := condition.wellFormed testingFormed
  obtain ⟨increment, stepFormed, step, rfl⟩ := expressionUnless_reads steppingFormed stepped
  have closing := expect_reads (step.wellFormed steppingFormed) rfl closed
  have bodyFormed := closing.wellFormed (step.wellFormed steppingFormed)
  obtain ⟨body, nested, noDeclaration, inside, ends, rfl⟩ := statements _ _ _ _ bodyFormed read
  have head : stream.Reads (Surface.clausesSpelling initializer test increment) middle := by
    have parts := word.append (opening.append (first.append (condition.append
      (step.append closing))))
    simpa [Surface.clausesSpelling] using parts
  refine ⟨.forLoop initializer test increment body,
    .forLoop start testFormed stepFormed (by simpa using noDeclaration) nested, by rintro ⟨⟩,
    head.append inside, ends, ?_⟩
  have clausesLines : clauses.lines = stream.lines.drop 2 := by
    rw [opening.lines, word.lines, List.drop_drop]
    rfl
  obtain ⟨semicolon, tail, mark⟩ := condition.split (Surface.optionalSpelling test)
  rw [toStmt_eq_forTree, Stream.current_line, mark.lines, tail.lines, first.lines, clausesLines,
    head.lines]
  rfl

/-- An `else` goes with the `if` just read; where none follows, an `else` further on cannot. -/
theorem ifStatement_reads (statements : ReadsStatements statement false) {tree : Stmt}
    (proper : stream.WellFormed) (found : stream.current.kind = .ifWord)
    (success : ifStatement stream.current.line (statement inLoop) stream.advance =
      .ok (tree, rest)) : SpellsStatement false inLoop stream rest tree := by
  simp only [ifStatement, bind_eq_ok] at success
  obtain ⟨_, middle, tested, _, between, read, found?, next, taken, success⟩ := success
  obtain ⟨test, testFormed, head, rfl⟩ := condition_reads proper found rfl tested
  have inside := head.wellFormed proper
  obtain ⟨whenTrue, firstFormed, noDeclaration, first, ends, rfl⟩ :=
    statements _ _ _ _ inside read
  have noInner : whenTrue.isDeclaration = false := by simpa using noDeclaration
  have behind := first.wellFormed inside
  rcases take?_reads behind rfl taken with ⟨rfl, rfl, noElse⟩ | ⟨⟨token, rfl⟩, mark⟩
  · simp only [bind_eq_ok, pure_apply] at success
    obtain ⟨_, _, given, success⟩ := success
    cases given
    cases success
    refine ⟨.branch test whenTrue, .branch testFormed noInner firstFormed, by rintro ⟨⟩,
      head.append first, fun _ => noElse, ?_⟩
    rw [Stream.current_line, head.lines]
    rfl
  · simp only [bind_eq_ok, pure_apply] at success
    obtain ⟨_, _, read, _, _, given, success⟩ := success
    cases given
    cases success
    obtain ⟨whenFalse, secondFormed, noOther, second, otherEnds, rfl⟩ :=
      statements _ _ _ _ (mark.wellFormed behind) read
    have closed : whenTrue.endsOpen = false := by
      cases same : whenTrue.endsOpen with
      | false => rfl
      | true => exact absurd (current_of_reads mark) (ends same)
    refine ⟨.choice test whenTrue whenFalse,
      .choice testFormed noInner closed firstFormed (by simpa using noOther) secondFormed,
      by rintro ⟨⟩, head.append (first.append (mark.append second)), otherEnds, ?_⟩
    rw [Stream.current_line, mark.lines, first.lines, head.lines]
    rfl

private theorem loopControl_reads {keyword : Token} {result : Unit} (proper : stream.WellFormed)
    (success : loopControl keyword inLoop stream = .ok (result, rest)) :
    inLoop = true ∧ stream.Reads [.mark .semicolon] rest := by
  cases inLoop with
  | false => cases success
  | true => exact ⟨rfl, expect_reads proper rfl success⟩

private theorem statementOver_reads (declarations : ReadsStatements declaration true)
    (statements : ReadsStatements statement false) :
    ReadsStatements (statementOver declaration statement) false := by
  intro inLoop stream rest tree proper success
  rw [statementOver, bind_apply] at success
  simp only [peek_apply] at success
  generalize found : stream.current.kind = kind at success
  cases kind
  case forWord => exact forStatement_reads statements proper found success
  case ifWord => exact ifStatement_reads statements proper found success
  case returnWord =>
    have word := proper.reads_mark found rfl
    obtain ⟨value, wellFormed, spelled, rfl⟩ :=
      returnStatement_reads (word.wellFormed proper) success
    refine .closed (.returns wellFormed) rfl rfl (word.append spelled) ?_
    rw [Stream.current_line, word.lines]
    rfl
  case whileWord =>
    simp only [whileStatement, bind_eq_ok, advance_apply] at success
    obtain ⟨_, _, advanced, _, middle, tested, _, _, read, success⟩ := success
    cases advanced
    cases success
    obtain ⟨test, testFormed, head, rfl⟩ := condition_reads proper found rfl tested
    obtain ⟨body, nested, noDeclaration, inside, ends, rfl⟩ :=
      statements _ _ _ _ (head.wellFormed proper) read
    refine ⟨.whileLoop test body, .whileLoop testFormed (by simpa using noDeclaration) nested,
      by rintro ⟨⟩, head.append inside, ends, ?_⟩
    rw [Stream.current_line, head.lines]
    rfl
  case leftBrace =>
    have opening := proper.reads_mark found rfl
    simp only [bind_eq_ok, advance_apply] at success
    obtain ⟨_, _, advanced, _, _, read, success⟩ := success
    cases advanced
    cases success
    obtain ⟨inside, each, spelled, rfl⟩ :=
      blockBody_reads declarations (opening.wellFormed proper) read
    refine .closed (.block each) rfl rfl (opening.append spelled) ?_
    rw [Stream.current_line, opening.lines]
    rfl
  case breakWord =>
    have word := proper.reads_mark found rfl
    simp only [bind_eq_ok, advance_apply] at success
    obtain ⟨_, _, advanced, _, _, read, success⟩ := success
    cases advanced
    cases success
    obtain ⟨rfl, mark⟩ := loopControl_reads (word.wellFormed proper) read
    exact .closed .leave rfl rfl (word.append mark) (by rw [Stream.current_line]; rfl)
  case continueWord =>
    have word := proper.reads_mark found rfl
    simp only [bind_eq_ok, advance_apply] at success
    obtain ⟨_, _, advanced, _, _, read, success⟩ := success
    cases advanced
    cases success
    obtain ⟨rfl, mark⟩ := loopControl_reads (word.wellFormed proper) read
    exact .closed .proceed rfl rfl (word.append mark) (by rw [Stream.current_line]; rfl)
  all_goals
    obtain ⟨expression, wellFormed, spelled, rfl⟩ := expressionStatement_reads proper success
    exact .closed (.evaluate wellFormed) rfl rfl spelled rfl

private theorem functionDeclaration_reads (declarations : ReadsStatements declaration true)
    {tree : Stmt} (proper : stream.WellFormed) (found : stream.current.kind = .funcWord)
    (success : functionDeclaration stream.current.line (declaration false) stream.advance =
      .ok (tree, rest)) : SpellsStatement true inLoop stream rest tree := by
  have word := proper.reads_mark found rfl
  have named := word.wellFormed proper
  simp only [functionDeclaration, bind_eq_ok] at success
  obtain ⟨name, _, read, _, _, opened, parameters, _, listed, found?, _, taken, success⟩ := success
  have text := name_reads named read
  have paren := expect_reads (text.wellFormed named) rfl opened
  have parametersFormed := paren.wellFormed (text.wellFormed named)
  obtain ⟨few, list⟩ := parameters_reads parametersFormed listed
  have colonFormed := list.wellFormed parametersFormed
  rcases take?_reads colonFormed rfl taken with ⟨rfl, rfl, _⟩ | ⟨⟨token, rfl⟩, colon⟩
  · cases success
  · simp only [bind_eq_ok, peek_apply] at success
    obtain ⟨result, brace, typed, _, _, peeked, _, inner, opened, _, _, read, success⟩ := success
    cases peeked
    cases success
    have typeFormed := colon.wellFormed colonFormed
    have type := declaredType_reads typeFormed typed
    have braceFormed := type.wellFormed typeFormed
    have opening := expect_reads braceFormed rfl opened
    obtain ⟨body, each, inside, rfl⟩ :=
      blockBody_reads declarations (opening.wellFormed braceFormed) read
    have head : stream.Reads (Surface.headSpelling name parameters result) brace := by
      have parts := word.append (text.append (paren.append (list.append (colon.append type))))
      simpa [Surface.headSpelling] using parts
    refine ⟨.function name parameters result body, .function few each, fun _ => rfl,
      head.append (opening.append inside), by rintro ⟨⟩, ?_⟩
    rw [Stream.current_line, Stream.current_line, opening.lines, head.lines]
    rfl

private theorem declarationOver_reads (declarations : ReadsStatements declaration true)
    (statements : ReadsStatements statement false) :
    ReadsStatements (declarationOver declaration statement) true := by
  intro inLoop stream rest tree proper success
  obtain ⟨declared, looked⟩ := atDeclaration_looks stream
  rw [declarationOver, bind_apply] at success
  simp only [peek_apply] at success
  generalize found : stream.current.kind = kind at success
  cases kind
  case funcWord => exact functionDeclaration_reads declarations proper found success
  case includeWord => cases success
  all_goals
    simp only [bind_apply, looked] at success
    cases declared
    case true =>
      obtain ⟨name, type, value, wellFormed, _, spelled, rfl⟩ :=
        variableDeclaration_reads proper success
      exact ⟨.declare name type value, .declare wellFormed, fun _ => rfl, spelled,
        by rintro ⟨⟩, rfl⟩
    case false =>
      obtain ⟨written, wellFormed, _, spelled, ends, same⟩ :=
        statementOver_reads declarations statements _ _ _ _ proper success
      exact ⟨written, wellFormed, fun _ => rfl, spelled, ends, same⟩

theorem upTo_reads (depth : Nat) : ReadsStatements (declarationUpTo depth) true ∧
    ReadsStatements (statementUpTo depth) false := by
  induction depth with
  | zero =>
    have flat {declarations : Bool} :
        ReadsStatements (fun _ => expressionStatement) declarations := by
      intro inLoop stream rest tree proper success
      obtain ⟨expression, wellFormed, spelled, rfl⟩ := expressionStatement_reads proper success
      exact .closed (.evaluate wellFormed) rfl rfl spelled rfl
    constructor
    · rw [declarationUpTo]
      exact flat
    · rw [statementUpTo]
      exact flat
  | succ depth ih =>
    constructor
    · rw [declarationUpTo]
      exact declarationOver_reads ih.1 ih.2
    · rw [statementUpTo]
      exact statementOver_reads ih.1 ih.2

private theorem declaration_reads {tree : Stmt} (proper : stream.WellFormed)
    (success : Grammar.declaration stream = .ok (tree, rest)) :
    SpellsStatement true false stream rest tree := by
  simp only [Grammar.declaration, bind_apply, remaining_apply] at success
  exact (upTo_reads _).1 _ _ _ _ proper success

theorem item_reads {tree : Stmt} (proper : stream.WellFormed)
    (success : item stream = .ok (.declaration tree, rest)) :
    SpellsStatement true false stream rest tree := by
  simp only [item, bind_eq_ok] at success
  obtain ⟨found, middle, taken, success⟩ := success
  rcases take?_reads proper rfl taken with ⟨rfl, rfl, _⟩ | ⟨⟨token, rfl⟩, _⟩
  · simp only [bind_eq_ok, pure_apply] at success
    obtain ⟨_, _, read, success⟩ := success
    cases success
    exact declaration_reads proper read
  · simp only [bind_eq_ok, pure_apply] at success
    obtain ⟨_, _, _, success⟩ := success
    cases success

/-- Items that are all declarations are read from the spelling of statements, up to the end of
the source. -/
theorem outline_reads (count : Nat) {trees : List Stmt} (proper : stream.WellFormed)
    (enough : stream.ahead.length ≤ count)
    (success : Outline.read count stream = ⟨trees.map .declaration, none⟩) :
    ∃ statements : List Surface.Stmt, (∀ statement ∈ statements, statement.WellFormed false) ∧
      stream.ahead.map Token.symbol = Surface.Stmt.spellings statements ∧
      trees = Surface.Stmt.desugarAll statements stream.lines := by
  have finished {trees : List Stmt} {stream : Stream} (empty : stream.ahead = [])
      (nothing : ([] : List Item) = trees.map .declaration) :
      ∃ statements : List Surface.Stmt, (∀ statement ∈ statements, statement.WellFormed false) ∧
        stream.ahead.map Token.symbol = Surface.Stmt.spellings statements ∧
        trees = Surface.Stmt.desugarAll statements stream.lines :=
    ⟨[], by simp, by rw [empty]; rfl, List.map_eq_nil_iff.mp nothing.symm⟩
  induction count generalizing stream trees with
  | zero =>
    have empty : stream.ahead = [] := List.length_eq_zero_iff.mp (Nat.le_zero.mp enough)
    exact finished empty (congrArg Outline.items success)
  | succ count ih =>
    cases ahead : stream.ahead.isEmpty with
    | true =>
      simp only [Outline.read, ahead, ↓reduceIte, Outline.mk.injEq, and_true] at success
      exact finished (List.isEmpty_iff.mp ahead) success
    | false =>
      simp only [Outline.read, ahead, Bool.false_eq_true, ↓reduceIte] at success
      cases read : item.run stream with
      | error error => simp [read] at success
      | ok result =>
        obtain ⟨first, rest⟩ := result
        simp only [read, Outline.mk.injEq] at success
        obtain ⟨items, clean⟩ := success
        obtain ⟨tree, trees, rfl, rfl, others⟩ := List.map_eq_cons_iff.mp items.symm
        obtain ⟨written, wellFormed, _, spelled, _, rfl⟩ := item_reads proper read
        obtain ⟨symbol, symbols, same, _⟩ := wellFormed.head
        have shorter := spelled.length
        rw [same, List.length_cons] at shorter
        obtain ⟨statements, each, behind, rfl⟩ := ih (spelled.wellFormed proper) (by omega)
          (by rw [others, ← clean])
        refine ⟨written :: statements, List.forall_mem_cons.mpr ⟨wellFormed, each⟩, ?_, ?_⟩
        · obtain ⟨tokens, ahead, front, _⟩ := spelled
          rw [ahead, List.map_append, front, behind]
          rfl
        · rw [spelled.lines]
          rfl

theorem declarations_eq_ok {items : List Item} {error : Option Error} {trees : List Stmt}
    (success : Outline.declarations items error = .ok trees) :
    items = trees.map .declaration ∧ error = none := by
  induction items generalizing trees with
  | nil =>
    cases error with
    | none =>
      cases success
      exact ⟨rfl, rfl⟩
    | some error => cases success
  | cons first rest ih =>
    cases first with
    | inclusion keyword target => cases success
    | declaration tree =>
      obtain ⟨others, found, rfl⟩ := Except.ok_of_map success
      obtain ⟨rfl, clean⟩ := ih found
      exact ⟨rfl, clean⟩

/-- The spelling of a program that was read, and its tree. -/
theorem parse_reads {tokens : List Token} {last : Token} {program : Program}
    (each : ∀ token ∈ tokens, token.WellFormed ∧ token.kind ≠ .endOfFile)
    (final : last.WellFormed) (ends : last.kind = .endOfFile)
    (success : parse (tokens ++ [last]) = .ok program) :
    ∃ written : Surface.Program, tokens.map Token.symbol = written.spelling ∧
      program = written.desugar ((tokens ++ [last]).map Token.line) := by
  have inside : ∀ token ∈ tokens, token.kind ≠ .endOfFile :=
    fun token member => (each token member).2
  have proper : Stream.WellFormed ⟨tokens, last⟩ := ⟨each, final, ends⟩
  rw [parse, Outline.ofTokens, ofTokens_append ends inside, Outline.toProgram] at success
  generalize read : Outline.read tokens.length ⟨tokens, last⟩ = outline at success
  obtain ⟨trees, found, rfl⟩ := Except.ok_of_map success
  obtain ⟨items, clean⟩ := declarations_eq_ok found
  obtain ⟨statements, wellFormed, spelled, rfl⟩ :=
    outline_reads _ proper (Nat.le_refl _) (read.trans (by rw [← items, ← clean]))
  exact ⟨⟨statements, wellFormed⟩, spelled, rfl⟩

/-- A program that is read from well-formed tokens is, up to line numbers, the desugaring of a
program that the tokens in front of the end spell out, and so its trees have the shape that
the grammar asks for. -/
theorem spelling_of_parse (tokens : List Token) (last : Token) (program : Program)
    (each : ∀ token ∈ tokens, token.WellFormed ∧ token.kind ≠ .endOfFile)
    (final : last.WellFormed) (ends : last.kind = .endOfFile)
    (success : parse (tokens ++ [last]) = .ok program) :
    (∃ written : Surface.Program, tokens.map Token.symbol = written.spelling ∧
      program.withoutLines = written.desugar []) ∧
      ∀ declaration ∈ program.declarations, declaration.Shaped false := by
  obtain ⟨written, spelled, rfl⟩ := parse_reads each final ends success
  refine ⟨⟨written, spelled, written.withoutLines_desugar _⟩, ?_⟩
  exact Surface.shaped_desugarAll
    (fun statement member => (written.wellFormed statement member).shaped) _

/-- The tokens of `for (; a; b) continue;`. -/
def steppedTokens : List Token :=
  [Symbol.mark .forWord, .mark .leftParen, .mark .semicolon, .name "a", .mark .semicolon,
    .name "b", .mark .rightParen, .mark .continueWord, .mark .semicolon].map Symbol.token

/-- The program `while (a) { continue; b; }` of a loop with an increment. -/
def steppedProgram : Program where
  declarations :=
    [.loop (.identifier "a" 0) (.block [.proceed 0, .evaluate (.identifier "b" 0) 0] 0) true 0]

theorem spelling_of_steppedTokens :
    (∃ written : Surface.Program, steppedTokens.map Token.symbol = written.spelling ∧
      steppedProgram.withoutLines = written.desugar []) ∧
      ∀ declaration ∈ steppedProgram.declarations, declaration.Shaped false :=
  spelling_of_parse steppedTokens (Symbol.mark .endOfFile).token steppedProgram (by decide)
    (by decide) rfl rfl

end Scriptlet.Grammar
