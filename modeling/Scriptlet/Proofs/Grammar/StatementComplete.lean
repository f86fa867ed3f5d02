import Scriptlet.Grammar.Outline
import Scriptlet.Proofs.Grammar.ExpressionComplete

/-! Every statement and declaration of the grammar is read from its spelling, and so is every
program. What follows a statement matters only where the statement ends with an `if` that
has no `else`. -/
namespace Scriptlet.Grammar

open Scriptlet.Grammar.Parser
open Scriptlet.Grammar.Stream (reads_cons reads_nil)

variable {stream rest : Stream}

private theorem stars_accepts (stars count : Nat) (enough : stars ≤ count)
    (reads : stream.Reads (List.replicate stars (.mark .star)) rest)
    (ends : rest.current.kind ≠ .star) : Grammar.stars count stream = .ok (stars, rest) := by
  induction stars generalizing count stream with
  | zero =>
    cases reads_nil.mp reads
    cases count with
    | zero => rfl
    | succ count => simp only [Grammar.stars, bind_apply, take?_other ends, pure_apply]
  | succ stars ih =>
    obtain ⟨count, rfl⟩ : ∃ fewer, count = fewer + 1 := ⟨count - 1, by omega⟩
    obtain ⟨middle, mark, others⟩ := reads.split [.mark .star]
    have read := ih count (by omega) others
    simp only [Grammar.stars, bind_apply, take?_mark mark, read, pure_apply]

private theorem declaredType_accepts {type : DeclaredType} (reads : stream.Reads type.spelling rest)
    (ends : rest.current.kind ≠ .star) : declaredType stream = .ok (type, rest) := by
  obtain ⟨middle, named, marks⟩ := reads.split [.name type.name]
  have length := marks.length
  have read := stars_accepts type.stars middle.ahead.length (by simp at length; omega) marks ends
  simp only [declaredType, bind_apply, name_name named, remaining_apply, read, pure_apply]

/-- The parts of a spelled parameter. -/
theorem parameter_parts {parameter : Parameter} (reads : stream.Reads parameter.spelling rest) :
    ∃ named typed, stream.Reads [.name parameter.name] named ∧
      named.Reads [.mark .colon] typed ∧ typed.Reads parameter.type.spelling rest := by
  obtain ⟨named, text, behind⟩ := reads.split [.name parameter.name]
  obtain ⟨typed, mark, type⟩ := behind.split [.mark .colon]
  exact ⟨named, typed, text, mark, type⟩

private theorem parameterList_accepts (parameters : List Parameter) (allowed : Nat)
    (some : parameters ≠ []) (few : parameters.length ≤ allowed)
    (reads : stream.Reads (Surface.separated (parameters.map Parameter.spelling)) rest)
    (ends : rest.current.kind = .rightParen) :
    parameterList allowed stream = .ok (parameters, rest) := by
  induction parameters generalizing allowed stream with
  | nil => exact absurd rfl some
  | cons first others ih =>
    cases allowed with
    | zero => simp at few
    | succ allowed =>
      cases others with
      | nil =>
        obtain ⟨named, typed, text, mark, type⟩ := parameter_parts reads
        have read := declaredType_accepts type (by simp [ends])
        have noComma : rest.current.kind ≠ .comma := by simp [ends]
        simp only [parameterList, bind_apply, name_name text, expect_mark mark, read,
          take?_other noComma, pure_apply]
      | cons second others =>
        obtain ⟨middle, start, behind⟩ := reads.split _
        obtain ⟨next, comma, behind⟩ := behind.split [.mark .comma]
        obtain ⟨named, typed, text, mark, type⟩ := parameter_parts start
        have read := declaredType_accepts type (by simp [current_of_reads comma, Symbol.mark])
        have following := ih allowed (by simp) (Nat.le_of_succ_le_succ few) behind
        simp only [parameterList, bind_apply, name_name text, expect_mark mark, read,
          take?_mark comma, following, pure_apply]

private theorem parameters_accepts {parameters : List Parameter} (few : parameters.length ≤ 16)
    (reads : stream.Reads
      (Surface.separated (parameters.map Parameter.spelling) ++ [.mark .rightParen]) rest) :
    Grammar.parameters stream = .ok (parameters, rest) := by
  obtain ⟨middle, list, closing⟩ := reads.split _
  cases parameters with
  | nil =>
    cases reads_nil.mp list
    have atOnce : stream.current.kind = .rightParen := current_of_reads closing
    simp only [Grammar.parameters, bind_apply, check_apply, atOnce, decide_true, ↓reduceIte,
      pure_apply, expect_mark closing]
  | cons first others =>
    have later : stream.current.kind ≠ .rightParen := by
      have begins : ∃ symbols,
          Surface.separated ((first :: others).map Parameter.spelling) =
            .name first.name :: symbols := by
        cases others <;> exact ⟨_, rfl⟩
      obtain ⟨symbols, begins⟩ := begins
      rw [begins] at list
      rw [current_of_reads list]
      simp
    have read := parameterList_accepts (first :: others) maxArguments (by simp) few list
      (current_of_reads closing)
    simp only [Grammar.parameters, bind_apply, check_apply, later, decide_false,
      Bool.false_eq_true, ↓reduceIte, read, expect_mark closing, pure_apply]

private theorem expression_before {kind : Kind} {expression : Surface.Expr}
    (proper : expression.WellFormed) (reads : stream.Reads expression.spelling rest)
    (found : rest.current.kind = kind) (ends : kind.endsExpression = true) :
    Grammar.expression stream = .ok (expression.desugar stream.lines, rest) :=
  expression_accepts proper reads (by rw [found]; exact Kind.not_continues ends 0)

private theorem variableDeclaration_accepts {name : String} {type : DeclaredType}
    {value : Option Surface.Expr} (needed : Bool)
    (proper : ∀ expression ∈ value, expression.WellFormed)
    (given : needed = true → value.isSome = true)
    (reads : stream.Reads (Surface.declarationSpelling name type value) rest) :
    variableDeclaration needed stream =
      .ok (Surface.declarationTree name type value stream.lines, rest) := by
  obtain ⟨named, text, behind⟩ := reads.split [.name name]
  obtain ⟨typed, colon, behind⟩ := behind.split [.mark .colon]
  obtain ⟨middle, spelled, behind⟩ := behind.split type.spelling
  cases value with
  | none =>
    have optional : needed = false := by
      cases needed with
      | false => rfl
      | true => cases given rfl
    have ends : middle.current.kind = .semicolon := current_of_reads behind
    have read := declaredType_accepts spelled (by simp [ends])
    have noMark : middle.current.kind ≠ .equal := by simp [ends]
    simp only [variableDeclaration, bind_apply, peek_apply, name_name text, expect_mark colon, read,
      take?_other noMark, optional, Bool.false_eq_true, ↓reduceIte, pure_apply,
      expect_mark behind, Stream.current_line]
    rfl
  | some initial =>
    obtain ⟨next, mark, behind⟩ := behind.split [.mark .equal]
    obtain ⟨final, start, closing⟩ := behind.split _
    have read := declaredType_accepts spelled (by simp [current_of_reads mark, Symbol.mark])
    have valued := expression_before (proper initial rfl) start (current_of_reads closing) rfl
    simp only [variableDeclaration, bind_apply, peek_apply, name_name text, expect_mark colon, read,
      take?_mark mark, valued, pure_apply, expect_mark closing, Stream.current_line, mark.lines,
      spelled.lines, colon.lines, text.lines, Surface.declarationTree, Option.map_some,
      List.drop_drop]
    rfl

private theorem expressionStatement_accepts {expression : Surface.Expr}
    (proper : expression.WellFormed)
    (reads : stream.Reads (expression.spelling ++ [.mark .semicolon]) rest) :
    expressionStatement stream =
      .ok (.evaluate (expression.desugar stream.lines) (stream.lines.headD 0), rest) := by
  obtain ⟨middle, start, closing⟩ := reads.split _
  have read := expression_before proper start (current_of_reads closing) rfl
  simp only [expressionStatement, bind_apply, read, expect_mark closing, pure_apply,
    Surface.Expr.line_desugar]

private theorem expressionUnless_accepts (kind : Kind) {value : Option Surface.Expr}
    (proper : ∀ expression ∈ value, expression.WellFormed) (ends : kind.endsExpression = true)
    (reads : stream.Reads (Surface.optionalSpelling value) rest) (found : rest.current.kind = kind)
    :
    expressionUnless kind stream =
      .ok (value.map fun expression => expression.desugar stream.lines, rest) := by
  cases value with
  | none =>
    cases reads_nil.mp reads
    simp only [expressionUnless, bind_apply, check_apply, found, decide_true, ↓reduceIte,
      pure_apply, Option.map_none]
  | some expression =>
    have later : stream.current.kind ≠ kind := by
      obtain ⟨symbol, symbols, same, starts⟩ := (proper expression rfl).head
      simp only [Surface.optionalSpelling, same] at reads
      rintro rfl
      rw [current_of_reads reads, Surface.endsExpression_of_starts starts] at ends
      cases ends
    have read := expression_before (proper expression rfl) reads found ends
    simp only [expressionUnless, bind_apply, check_apply, later, decide_false, Bool.false_eq_true,
      ↓reduceIte, read, pure_apply, Option.map_some]

/-- A condition is read behind its keyword. -/
theorem condition_accepts {keyword : Kind} (place : Place) {test : Surface.Expr}
    (proper : test.WellFormed)
    (reads : stream.Reads (Surface.conditionSpelling keyword test) rest) :
    condition keyword place stream.advance = .ok (test.desugar (stream.lines.drop 2), rest) := by
  obtain ⟨_, reads, lines⟩ := reads.mark
  obtain ⟨inner, opening, reads⟩ := reads.split [.mark .leftParen]
  obtain ⟨middle, start, closing⟩ := reads.split test.spelling
  have read := expression_before proper start (current_of_reads closing) rfl
  simp only [condition, bind_apply, expect_mark opening, read, expect_mark closing, pure_apply,
    opening.lines, lines, List.drop_drop]
  rfl

private theorem atDeclaration_declared {name : String} {symbols : List Symbol}
    (reads : stream.Reads (.name name :: .mark .colon :: symbols) rest) :
    atDeclaration stream = .ok (true, stream) := by
  obtain ⟨tokens, ahead, spelled, _⟩ := reads
  obtain ⟨token, others, rfl, named, spelled⟩ := List.map_eq_cons_iff.mp spelled
  obtain ⟨mark, others, rfl, colon, spelled⟩ := List.map_eq_cons_iff.mp spelled
  rw [atDeclaration_apply, ahead]
  simp [kind_of_symbol named, kind_of_symbol colon, Symbol.name, Symbol.mark]

private theorem atDeclaration_keyword (other : stream.current.kind ≠ .identifier) :
    atDeclaration stream = .ok (false, stream) := by
  rw [atDeclaration_apply]
  split
  · rename_i first second others ahead
    have different : first.kind ≠ .identifier := by simpa [Stream.current, ahead] using other
    simp [different]
  · rfl

/-- The second symbol of an expression statement is no colon. -/
theorem atDeclaration_expression {expression : Surface.Expr} (proper : expression.WellFormed)
    (reads : stream.Reads (expression.spelling ++ [.mark .semicolon]) rest) :
    atDeclaration stream = .ok (false, stream) := by
  obtain ⟨tokens, ahead, spelled, _⟩ := reads
  obtain ⟨first, symbols, same, _⟩ := proper.head
  have noColon : ∀ symbol ∈ symbols ++ [.mark .semicolon], symbol.kind ≠ .colon := by
    intro symbol member
    rcases List.mem_append.mp member with inside | last
    · exact (proper.kinds symbol (by simp [same, inside])).1
    · obtain rfl := List.mem_singleton.mp last
      simp
  rw [same, List.cons_append] at spelled
  obtain ⟨token, others, rfl, _, spelled⟩ := List.map_eq_cons_iff.mp spelled
  rw [atDeclaration_apply, ahead]
  cases others with
  | nil => simp at spelled
  | cons second others =>
    have different : second.kind ≠ .colon :=
      noColon second.symbol (by rw [← spelled]; exact List.mem_cons_self ..)
    simp [different]

/-- The parser reads every statement of the grammar whose spelling is not too long, and every
declaration if it is to read declarations. -/
def AcceptsStatements (parser : Bool → Parser Stmt) (declarations : Bool) (bound : Nat) : Prop :=
  ∀ (statement : Surface.Stmt) (inLoop : Bool) (stream rest : Stream),
    statement.WellFormed inLoop → (statement.isDeclaration = true → declarations = true) →
    statement.spelling.length ≤ bound → stream.Reads statement.spelling rest →
    (statement.endsOpen = true → rest.current.kind ≠ .elseWord) →
    parser inLoop stream = .ok (statement.desugar stream.lines, rest)

variable {declaration statement : Bool → Parser Stmt} {bound : Nat}

private theorem blockItems_accepts (items : AcceptsStatements declaration true bound)
    {inLoop : Bool} (statements : List Surface.Stmt) (count : Nat)
    (proper : ∀ statement ∈ statements, statement.WellFormed inLoop)
    (enough : (Surface.Stmt.spellings statements).length ≤ count)
    (short : (Surface.Stmt.spellings statements).length ≤ bound)
    (reads : stream.Reads (Surface.Stmt.spellings statements) rest)
    (ends : rest.current.kind = .rightBrace) :
    blockItems (declaration inLoop) count stream =
      .ok (Surface.Stmt.desugarAll statements stream.lines, rest) := by
  induction statements generalizing count stream with
  | nil =>
    cases reads_nil.mp reads
    cases count with
    | zero => rfl
    | succ count =>
      simp only [blockItems, bind_apply, peek_apply, ends, true_or, ↓reduceIte, pure_apply]
      rfl
  | cons first others ih =>
    have firstProper := proper first (List.mem_cons_self ..)
    have othersProper : ∀ statement ∈ others, statement.WellFormed inLoop :=
      fun statement member => proper statement (List.mem_cons_of_mem _ member)
    obtain ⟨symbol, symbols, same, starts⟩ := firstProper.head
    obtain ⟨middle, start, behind⟩ := reads.split first.spelling
    simp only [Surface.Stmt.spellings, List.length_append] at enough short
    have some : 0 < first.spelling.length := by simp [same]
    obtain ⟨count, rfl⟩ : ∃ fewer, count = fewer + 1 := ⟨count - 1, by omega⟩
    have inside : ¬ (stream.current.kind = .rightBrace ∨ stream.current.kind = .endOfFile) := by
      rw [same] at start
      rw [current_of_reads start]
      rintro (closed | closed) <;> rw [closed] at starts <;> cases starts
    have noElse : middle.current.kind ≠ .elseWord := by
      cases others with
      | nil =>
        cases reads_nil.mp behind
        simp [ends]
      | cons second others =>
        obtain ⟨symbol, symbols, same, starts⟩ := (othersProper second (List.mem_cons_self ..)).head
        rw [Surface.Stmt.spellings, same] at behind
        rw [current_of_reads behind]
        rintro other
        rw [other] at starts
        cases starts
    have read := items first inLoop _ _ firstProper (fun _ => rfl) (by omega) start
      (fun _ => noElse)
    have following := ih count othersProper (by omega) (by omega) behind
    simp only [blockItems, bind_apply, peek_apply, inside, ↓reduceIte, read, following, pure_apply,
      start.lines]
    rfl

private theorem blockBody_accepts (items : AcceptsStatements declaration true bound) {inLoop : Bool}
    {statements : List Surface.Stmt}
    (proper : ∀ statement ∈ statements, statement.WellFormed inLoop)
    (short : (Surface.Stmt.spellings statements).length ≤ bound)
    (reads : stream.Reads (Surface.Stmt.spellings statements ++ [.mark .rightBrace]) rest) :
    blockBody (declaration inLoop) stream =
      .ok (Surface.Stmt.desugarAll statements stream.lines, rest) := by
  obtain ⟨middle, inside, closing⟩ := reads.split _
  have length := inside.length
  have read := blockItems_accepts items statements stream.ahead.length proper (by omega) short
    inside (current_of_reads closing)
  simp only [blockBody, bind_apply, remaining_apply, read, expect_mark closing, pure_apply]

private theorem forInitializer_accepts {initializer : Surface.Initializer}
    (proper : initializer.WellFormed) (reads : stream.Reads initializer.spelling rest) :
    forInitializer stream = .ok (initializer.desugar stream.lines, rest) := by
  cases initializer with
  | absent =>
    simp only [forInitializer, bind_apply, take?_mark reads, pure_apply]
    rfl
  | declaration name type value =>
    have noMark : stream.current.kind ≠ .semicolon := by
      rw [current_of_reads reads]
      simp
    have read := variableDeclaration_accepts true
      (by rintro expression ⟨⟩; exact proper) (fun _ => rfl) reads
    simp only [forInitializer, bind_apply, take?_other noMark, atDeclaration_declared reads,
      ↓reduceIte, read, pure_apply]
    rfl
  | expression value =>
    have valued : value.WellFormed := proper
    have noMark : stream.current.kind ≠ .semicolon := by
      obtain ⟨symbol, symbols, same, starts⟩ := valued.head
      rw [Surface.Initializer.spelling, same] at reads
      rw [current_of_reads reads]
      intro semicolon
      rw [semicolon] at starts
      cases starts
    have read := expressionStatement_accepts valued reads
    simp only [forInitializer, bind_apply, take?_other noMark,
      atDeclaration_expression valued reads, Bool.false_eq_true, ↓reduceIte, read, pure_apply]
    rfl

private theorem forCondition_accepts {test : Option Surface.Expr}
    (proper : ∀ expression ∈ test, expression.WellFormed)
    (reads : stream.Reads (Surface.optionalSpelling test ++ [.mark .semicolon]) rest) :
    forCondition stream = .ok (Surface.conditionTree test stream.lines, rest) := by
  obtain ⟨middle, start, closing⟩ := reads.split _
  have read := expressionUnless_accepts .semicolon proper rfl start
    (current_of_reads closing)
  simp only [forCondition, bind_apply, peek_apply, read, expect_mark closing, pure_apply,
    Stream.current_line]
  cases test <;> rfl

theorem toStmt_eq_forTree (initializer : Option Stmt) (test : Expr) (increment : Option Expr)
    (body : Stmt) (line : Nat) :
    ForLoop.toStmt ⟨initializer, test, increment, body⟩ line =
      Surface.forTree initializer test increment body line := by
  cases initializer <;> cases increment <;> rfl

private theorem returnStatement_accepts {value : Option Surface.Expr}
    (proper : ∀ expression ∈ value, expression.WellFormed)
    (reads : stream.Reads (Surface.optionalSpelling value ++ [.mark .semicolon]) rest) (line : Nat)
    :
    returnStatement line stream =
      .ok (.returns (value.map fun result => result.desugar stream.lines) line, rest) := by
  obtain ⟨middle, start, closing⟩ := reads.split _
  have read := expressionUnless_accepts .semicolon proper rfl start
    (current_of_reads closing)
  simp only [returnStatement, bind_apply, read, expect_mark closing, pure_apply]

/-- The clauses of a `for` loop are read behind its keyword, and then its body. -/
theorem forStatement_accepts {initializer : Surface.Initializer}
    {test increment : Option Surface.Expr} {middle : Stream} {body : Parser Stmt} {tree : Stmt}
    (start : initializer.WellFormed) (tested : ∀ expression ∈ test, expression.WellFormed)
    (stepped : ∀ expression ∈ increment, expression.WellFormed)
    (reads : stream.Reads (Surface.clausesSpelling initializer test increment) middle)
    (read : body middle = .ok (tree, rest)) (line : Nat) :
    forStatement line body stream.advance =
      .ok (Surface.forTree (initializer.desugar (stream.lines.drop 2))
        (Surface.conditionTree test ((stream.lines.drop 2).drop initializer.spelling.length))
        (increment.map fun expression => expression.desugar
          ((((stream.lines.drop 2).drop initializer.spelling.length).drop
            (Surface.optionalSpelling test).length).drop 1)) tree line, rest) := by
  obtain ⟨_, reads, lines⟩ := reads.mark
  obtain ⟨clauses, opening, reads⟩ := reads.split [.mark .leftParen]
  obtain ⟨testing, first, reads⟩ := reads.split initializer.spelling
  obtain ⟨tail, condition, reads⟩ := reads.split (Surface.optionalSpelling test)
  obtain ⟨stepping, mark, reads⟩ := reads.split [.mark .semicolon]
  obtain ⟨final, step, closing⟩ :=
    reads.split (Surface.optionalSpelling increment)
  have headLines : clauses.lines = stream.lines.drop 2 := by
    rw [opening.lines, lines, List.drop_drop]
    rfl
  have firstRead := forInitializer_accepts start first
  have conditionRead := forCondition_accepts tested (condition.append mark)
  have stepRead := expressionUnless_accepts .rightParen stepped rfl step
    (current_of_reads closing)
  simp only [forStatement, bind_apply, expect_mark opening, firstRead, conditionRead, stepRead,
    expect_mark closing, read, pure_apply, toStmt_eq_forTree, mark.lines, condition.lines,
    first.lines, headLines]
  rfl

private theorem statementOver_expression (inLoop : Bool)
    (starts : Surface.startsExpression stream.current.kind = true) :
    statementOver declaration statement inLoop stream = expressionStatement stream := by
  simp only [statementOver, bind_apply, peek_apply]
  cases kind : stream.current.kind <;> first | rfl | (rw [kind] at starts; cases starts)

private theorem statementOver_accepts (declarations : AcceptsStatements declaration true bound)
    (statements : AcceptsStatements statement false bound) :
    AcceptsStatements (statementOver declaration statement) false (bound + 1) := by
  intro written inLoop stream rest proper noDeclaration short reads ends
  cases proper with
  | function => cases noDeclaration rfl
  | declare => cases noDeclaration rfl
  | @block _ inside each =>
    obtain ⟨opening, behind, lines⟩ := reads.mark
    simp only [Surface.Stmt.spelling, List.length_cons, List.length_append] at short
    have read := blockBody_accepts declarations each (by omega) behind
    simp only [statementOver, bind_apply, peek_apply, opening, advance_apply, read, pure_apply,
      lines, Stream.current_line]
    rfl
  | @evaluate _ expression nested =>
    have starts : Surface.startsExpression stream.current.kind = true := by
      obtain ⟨symbol, symbols, same, starts⟩ := nested.head
      rw [Surface.Stmt.spelling, same] at reads
      rw [current_of_reads reads]
      exact starts
    rw [statementOver_expression inLoop starts, expressionStatement_accepts nested reads]
    rfl
  | @returns _ value result =>
    obtain ⟨keyword, behind, lines⟩ := reads.mark
    have read := returnStatement_accepts result behind (stream.lines.headD 0)
    simp only [statementOver, bind_apply, peek_apply, keyword, advance_apply, read, lines,
      Stream.current_line]
    rfl
  | @branch _ test whenTrue tested noInner first =>
    obtain ⟨middle, head, start⟩ :=
      reads.split (Surface.conditionSpelling .ifWord test)
    simp only [Surface.Stmt.spelling, Surface.conditionSpelling, List.length_cons,
      List.length_append] at short
    have testRead := condition_accepts .afterIfCondition tested head
    have read := statements whenTrue inLoop _ _ first (by simp [noInner]) (by omega) start
      (fun _ => ends rfl)
    have noElse : rest.current.kind ≠ .elseWord := ends rfl
    have keyword : stream.current.kind = .ifWord := current_of_reads head
    simp only [statementOver, ifStatement, bind_apply, peek_apply, keyword, advance_apply,
      testRead, read, take?_other noElse, pure_apply, head.lines, Stream.current_line]
    rfl
  | @choice _ test whenTrue whenFalse tested noInner closed first noOther second =>
    obtain ⟨middle, head, behind⟩ :=
      reads.split (Surface.conditionSpelling .ifWord test)
    obtain ⟨between, start, behind⟩ := behind.split whenTrue.spelling
    obtain ⟨next, mark, finish⟩ := behind.split [.mark .elseWord]
    simp only [Surface.Stmt.spelling, Surface.conditionSpelling, List.length_cons,
      List.length_append] at short
    have testRead := condition_accepts .afterIfCondition tested head
    have read := statements whenTrue inLoop _ _ first (by simp [noInner]) (by omega) start
      (by simp [closed])
    have otherRead := statements whenFalse inLoop _ _ second (by simp [noOther]) (by omega) finish
      ends
    have keyword : stream.current.kind = .ifWord := current_of_reads head
    simp only [statementOver, ifStatement, bind_apply, peek_apply, keyword, advance_apply,
      testRead, read, take?_mark mark, otherRead, pure_apply, head.lines, start.lines, mark.lines,
      Stream.current_line]
    rfl
  | @whileLoop _ test body tested noInner nested =>
    obtain ⟨middle, head, start⟩ :=
      reads.split (Surface.conditionSpelling .whileWord test)
    simp only [Surface.Stmt.spelling, Surface.conditionSpelling, List.length_cons,
      List.length_append] at short
    have testRead := condition_accepts .afterWhileCondition tested head
    have read := statements body true _ _ nested (by simp [noInner]) (by omega) start ends
    have keyword : stream.current.kind = .whileWord := current_of_reads head
    simp only [statementOver, whileStatement, bind_apply, peek_apply, keyword, advance_apply,
      testRead, read, pure_apply, head.lines, Stream.current_line]
    rfl
  | @forLoop _ initializer test increment body start tested stepped noInner nested =>
    obtain ⟨middle, head, inside⟩ :=
      reads.split (Surface.clausesSpelling initializer test increment)
    simp only [Surface.Stmt.spelling, Surface.clausesSpelling, List.length_cons,
      List.length_append] at short
    have bodyRead := statements body true _ _ nested (by simp [noInner]) (by omega) inside ends
    have read := forStatement_accepts start tested stepped head bodyRead (stream.lines.headD 0)
    have keyword : stream.current.kind = .forWord := current_of_reads head
    simp only [statementOver, bind_apply, peek_apply, keyword, advance_apply, read, head.lines,
      Stream.current_line]
    rfl
  | leave =>
    obtain ⟨keyword, closing, _⟩ := reads.mark
    simp only [statementOver, loopControl, bind_apply, peek_apply, keyword, advance_apply,
      ↓reduceIte, expect_mark closing, pure_apply, Stream.current_line]
    rfl
  | proceed =>
    obtain ⟨keyword, closing, _⟩ := reads.mark
    simp only [statementOver, loopControl, bind_apply, peek_apply, keyword, advance_apply,
      ↓reduceIte, expect_mark closing, pure_apply, Stream.current_line]
    rfl

private theorem functionDeclaration_accepts
    (declarations : AcceptsStatements declaration true bound) {name : String}
    {parameters : List Parameter} {result : DeclaredType} {body : List Surface.Stmt}
    (few : parameters.length ≤ 16) (each : ∀ statement ∈ body, statement.WellFormed false)
    (short : (Surface.Stmt.spellings body).length ≤ bound)
    (reads : stream.Reads (Surface.Stmt.function name parameters result body).spelling rest) :
    functionDeclaration (stream.lines.headD 0) (declaration false) stream.advance =
      .ok ((Surface.Stmt.function name parameters result body).desugar stream.lines, rest) := by
  obtain ⟨brace, head, inside⟩ :=
    reads.split (Surface.headSpelling name parameters result)
  obtain ⟨inner, opening, inside⟩ := inside.split [.mark .leftBrace]
  obtain ⟨_, _, parts⟩ := reads_cons.mp head
  obtain ⟨named, text, parts⟩ := parts.split [.name name]
  obtain ⟨listed, paren, parts⟩ := parts.split [.mark .leftParen]
  obtain ⟨closed, list, parts⟩ :=
    parts.split (Surface.separated (parameters.map Parameter.spelling))
  obtain ⟨typing, closing, parts⟩ := parts.split [.mark .rightParen]
  obtain ⟨typed, colon, type⟩ := parts.split [.mark .colon]
  have listRead := parameters_accepts few (list.append closing)
  have typeRead := declaredType_accepts type (by simp [current_of_reads opening, Symbol.mark])
  have bodyRead := blockBody_accepts declarations each short inside
  simp only [functionDeclaration, bind_apply, name_name text, expect_mark paren, listRead,
    take?_mark colon, typeRead, peek_apply, expect_mark opening, bodyRead, pure_apply,
    Stream.current_line, opening.lines, head.lines]
  rfl

private theorem declarationOver_statement (inLoop : Bool)
    (noFunction : stream.current.kind ≠ .funcWord) (noInclude : stream.current.kind ≠ .includeWord)
    (outside : atDeclaration stream = .ok (false, stream)) :
    declarationOver declaration statement inLoop stream =
      statementOver declaration statement inLoop stream := by
  simp only [declarationOver, bind_apply, peek_apply, outside, Bool.false_eq_true, ↓reduceIte]

/-- Where a keyword or a brace begins a statement, no declaration begins. -/
theorem declarationOver_keyword {kind : Kind} (inLoop : Bool) (found : stream.current.kind = kind)
    (other : kind ≠ .identifier ∧ kind ≠ .funcWord ∧ kind ≠ .includeWord) :
    declarationOver declaration statement inLoop stream =
      statementOver declaration statement inLoop stream := by
  subst found
  exact declarationOver_statement inLoop other.2.1 other.2.2 (atDeclaration_keyword other.1)

private theorem declarationOver_accepts (declarations : AcceptsStatements declaration true bound)
    (statements : AcceptsStatements statement false bound) :
    AcceptsStatements (declarationOver declaration statement) true (bound + 1) := by
  intro written inLoop stream rest proper _ short reads ends
  have asStatement (noDeclaration : written.isDeclaration = false) :
      statementOver declaration statement inLoop stream =
        .ok (written.desugar stream.lines, rest) :=
    statementOver_accepts declarations statements written inLoop _ _ proper
      (by simp [noDeclaration]) short reads ends
  have asKeyword {kind : Kind} (found : stream.current.kind = kind)
      (other : kind ≠ .identifier ∧ kind ≠ .funcWord ∧ kind ≠ .includeWord)
      (noDeclaration : written.isDeclaration = false) :
      declarationOver declaration statement inLoop stream =
        .ok (written.desugar stream.lines, rest) := by
    rw [declarationOver_keyword inLoop found other]
    exact asStatement noDeclaration
  cases proper with
  | @function _ name parameters result body few each =>
    have keyword : stream.current.kind = .funcWord := current_of_reads reads
    simp only [Surface.Stmt.spelling, Surface.headSpelling, List.length_cons,
      List.length_append] at short
    have read := functionDeclaration_accepts declarations few each (by omega) reads
    simp only [declarationOver, bind_apply, peek_apply, keyword, advance_apply,
      Stream.current_line, read]
  | @declare _ name type value initial =>
    have keyword : stream.current.kind = .identifier := current_of_reads reads
    have read := variableDeclaration_accepts false initial (by simp) reads
    simp only [declarationOver, bind_apply, peek_apply, keyword, atDeclaration_declared reads,
      ↓reduceIte, read]
    rfl
  | evaluate nested =>
    obtain ⟨symbol, symbols, same, starts⟩ := nested.head
    have kind : stream.current.kind = symbol.kind := by
      rw [Surface.Stmt.spelling, same] at reads
      exact current_of_reads reads
    rw [declarationOver_statement inLoop ?_ ?_ (atDeclaration_expression nested reads)]
    · exact asStatement rfl
    all_goals
      rw [kind]
      intro other
      rw [other] at starts
      cases starts
  | block => exact asKeyword (current_of_reads reads) (by decide) rfl
  | returns => exact asKeyword (current_of_reads reads) (by decide) rfl
  | branch => exact asKeyword (current_of_reads reads) (by decide) rfl
  | choice => exact asKeyword (current_of_reads reads) (by decide) rfl
  | whileLoop => exact asKeyword (current_of_reads reads) (by decide) rfl
  | forLoop => exact asKeyword (current_of_reads reads) (by decide) rfl
  | leave => exact asKeyword (current_of_reads reads) (by decide) rfl
  | proceed => exact asKeyword (current_of_reads reads) (by decide) rfl

/-- With at least as much depth as there are symbols, declarations and statements are read. -/
theorem upTo_accepts (depth : Nat) : AcceptsStatements (declarationUpTo depth) true depth ∧
    AcceptsStatements (statementUpTo depth) false depth := by
  induction depth with
  | zero =>
    have empty {parser : Bool → Parser Stmt} {declarations : Bool} :
        AcceptsStatements parser declarations 0 := by
      intro written inLoop stream rest proper _ short _ _
      obtain ⟨symbol, symbols, same, _⟩ := proper.head
      simp [same] at short
    exact ⟨empty, empty⟩
  | succ depth ih =>
    refine ⟨?_, ?_⟩
    · rw [declarationUpTo]
      exact declarationOver_accepts ih.1 ih.2
    · rw [statementUpTo]
      exact statementOver_accepts ih.1 ih.2

private theorem declaration_accepts {written : Surface.Stmt} (proper : written.WellFormed false)
    (reads : stream.Reads written.spelling rest) (ends : rest.current.kind ≠ .elseWord) :
    Grammar.declaration stream = .ok (written.desugar stream.lines, rest) := by
  have length := reads.length
  simp only [Grammar.declaration, bind_apply, remaining_apply]
  exact (upTo_accepts _).1 written false _ _ proper (fun _ => rfl) (by omega) reads (fun _ => ends)

theorem item_accepts {written : Surface.Stmt} (proper : written.WellFormed false)
    (reads : stream.Reads written.spelling rest)
    (ends : rest.current.kind ≠ .elseWord) :
    item stream = .ok (.declaration (written.desugar stream.lines), rest) := by
  obtain ⟨symbol, symbols, same, starts⟩ := proper.head
  have noInclude : stream.current.kind ≠ .includeWord := by
    rw [same] at reads
    rw [current_of_reads reads]
    intro other
    rw [other] at starts
    cases starts
  simp only [item, bind_apply, take?_other noInclude, declaration_accepts proper reads ends,
    pure_apply]

/-- Reading the items of a source gives the trees of all its declarations. -/
theorem outline_accepts (statements : List Surface.Stmt) (count : Nat)
    (proper : ∀ statement ∈ statements, statement.WellFormed false)
    (enough : (Surface.Stmt.spellings statements).length ≤ count)
    (reads : stream.Reads (Surface.Stmt.spellings statements) rest) (ends : rest.ahead = [])
    (last : stream.last.kind = .endOfFile) :
    Outline.read count stream =
      ⟨(Surface.Stmt.desugarAll statements stream.lines).map .declaration, none⟩ := by
  induction statements generalizing count stream with
  | nil =>
    cases reads_nil.mp reads
    cases count with
    | zero => rfl
    | succ count => simp [Outline.read, ends, Surface.Stmt.desugarAll]
  | cons first others ih =>
    have firstProper := proper first (List.mem_cons_self ..)
    have othersProper : ∀ statement ∈ others, statement.WellFormed false :=
      fun statement member => proper statement (List.mem_cons_of_mem _ member)
    obtain ⟨symbol, symbols, same, _⟩ := firstProper.head
    obtain ⟨middle, start, behind⟩ := reads.split first.spelling
    simp only [Surface.Stmt.spellings, List.length_append] at enough
    have some : 0 < first.spelling.length := by simp [same]
    obtain ⟨count, rfl⟩ : ∃ fewer, count = fewer + 1 := ⟨count - 1, by omega⟩
    have ahead : stream.ahead.isEmpty = false := by
      have length := start.length
      cases empty : stream.ahead with
      | nil =>
        simp only [empty, List.length_nil] at length
        omega
      | cons token tokens => rfl
    have noElse : middle.current.kind ≠ .elseWord := by
      cases others with
      | nil =>
        cases reads_nil.mp behind
        simp [Stream.current, ends, start.ends last]
      | cons second others =>
        obtain ⟨symbol, symbols, same, starts⟩ := (othersProper second (List.mem_cons_self ..)).head
        rw [Surface.Stmt.spellings, same] at behind
        rw [current_of_reads behind]
        intro other
        rw [other] at starts
        cases starts
    have read : item.run stream = .ok (.declaration (first.desugar stream.lines), middle) :=
      item_accepts firstProper start noElse
    have following := ih count othersProper (by omega) behind (start.ends last)
    simp only [Outline.read, ahead, Bool.false_eq_true, ↓reduceIte, read, following, start.lines]
    rfl

private theorem declarations_all (statements : List Stmt) :
    Outline.declarations (statements.map .declaration) none = .ok statements := by
  induction statements with
  | nil => rfl
  | cons first others ih => simp [Outline.declarations, ih, Except.map]

/-- A token list as a stream. What stands behind the first token that ends the source is left
out. -/
theorem ofTokens_append {tokens rest : List Token} {last : Token} (ends : last.kind = .endOfFile)
    (inside : ∀ token ∈ tokens, token.kind ≠ .endOfFile) :
    Stream.ofTokens (tokens ++ last :: rest) = ⟨tokens, last⟩ := by
  have front : (tokens ++ last :: rest).takeWhile (fun token => token.kind ≠ .endOfFile) =
      tokens := by
    rw [List.takeWhile_append_of_pos (by simpa using inside)]
    simp [ends]
  have final : (tokens ++ last :: rest).find? (fun token => token.kind = .endOfFile) =
      some last := by
    have none : tokens.find? (fun token => token.kind = .endOfFile) = none := by
      simpa using inside
    rw [List.find?_append, none]
    simp [ends]
  simp only [Stream.ofTokens, front, final, Option.getD_some]

/-- A spelled program is read as its tree, with the lines of its tokens. -/
theorem parse_accepts (program : Surface.Program) {tokens : List Token} {last : Token}
    (spelled : tokens.map Token.symbol = program.spelling) (ends : last.kind = .endOfFile) :
    parse (tokens ++ [last]) = .ok (program.desugar ((tokens ++ [last]).map Token.line)) := by
  have inside : ∀ token ∈ tokens, token.kind ≠ .endOfFile := by
    intro token member
    have symbol : token.symbol ∈ program.spelling := spelled ▸ List.mem_map_of_mem member
    exact Surface.inner_spellings
      (fun statement present => (program.wellFormed statement present).inner) token.symbol symbol
  have reads : Stream.Reads ⟨tokens, last⟩ program.spelling ⟨[], last⟩ :=
    ⟨tokens, by simp, spelled, rfl⟩
  have length := reads.length
  have outline := outline_accepts program.statements tokens.length program.wellFormed
    (by simpa [Surface.Program.spelling] using Nat.le_of_eq length.symm) reads rfl ends
  simp only [parse, Outline.ofTokens, ofTokens_append ends inside, outline, Outline.toProgram,
    declarations_all, Except.map]
  rfl

end Scriptlet.Grammar
