import Scriptlet.Proofs.Grammar.Ladder
import Scriptlet.Proofs.Grammar.Reading

/-! Whatever is read as an expression is spelled by one: each parser of the ladder reads
exactly the symbols of an expression that binds as tightly as the level asks for, and gives
its tree. -/
namespace Scriptlet.Grammar

open Scriptlet.Grammar.Parser
open Scriptlet.Grammar.Stream (reads_nil)

/-- Between two places of a stream, an expression of at least the given rank is spelled that
has the given tree. -/
def Spells (rank : Nat) (stream rest : Stream) (tree : Expr) : Prop :=
  ∃ expression : Surface.Expr, expression.WellFormed ∧ rank ≤ expression.rank ∧
    stream.Reads expression.spelling rest ∧ tree = expression.desugar stream.lines

/-- What the parser reads are expressions of at least the given rank. -/
def ReadsRank (parser : Parser Expr) (rank : Nat) : Prop :=
  ∀ (stream rest : Stream) (tree : Expr), stream.WellFormed →
    parser stream = .ok (tree, rest) → Spells rank stream rest tree

variable {nested operand : Parser Expr} {stream rest start : Stream} {rank : Nat}

private theorem reads_value {value : Value} (proper : stream.WellFormed)
    (found : literal? stream.current = some value) :
    stream.Reads [.value value] stream.advance := by
  have symbol : stream.current.symbol = .value value := by
    unfold literal? at found
    split at found <;> cases found
    all_goals
      rename_i kind literal
      simp [Token.symbol, Symbol.value, Value.kind, kind, literal]
  have other : stream.current.kind ≠ .endOfFile := by
    have kind : stream.current.kind = value.kind := kind_of_symbol symbol
    rw [kind]
    cases value <;> simp [Value.kind]
  exact Stream.reads_cons.mpr ⟨proper.ahead_ne_nil other, symbol, reads_nil.mpr rfl⟩

private theorem primary_reads (accepted : ReadsRank nested 0) : ReadsRank (primary nested) 9 := by
  intro stream rest tree proper success
  rw [primary, bind_apply] at success
  simp only [peek_apply] at success
  cases found : literal? stream.current with
  | some value =>
    simp only [found, bind_apply, advance_apply, pure_apply] at success
    cases success
    exact ⟨.literal value, .literal, Nat.le_refl 9, reads_value proper found,
      by rw [Stream.current_line]; rfl⟩
  | none =>
    simp only [found] at success
    generalize kindIs : stream.current.kind = kind at success
    generalize literalIs : stream.current.literal = literal at success
    cases kind
    case identifier =>
      rcases literal with _ | name | value
      · cases success
      · simp only [bind_apply, advance_apply, pure_apply] at success
        cases success
        have named : stream.current.identifier? = some name := by
          rw [Token.identifier?, literalIs]
        exact ⟨.identifier name, .identifier, Nat.le_refl 9, proper.reads_name named,
          by rw [Stream.current_line]; rfl⟩
      · cases success
    case leftParen =>
      have opening := proper.reads_mark kindIs rfl
      simp only [bind_eq_ok, advance_apply] at success
      obtain ⟨_, _, advanced, inner, middle, inside, _, _, closed, success⟩ := success
      cases advanced
      cases success
      obtain ⟨expression, wellFormed, _, spelled, rfl⟩ :=
        accepted _ _ _ (opening.wellFormed proper) inside
      have closing := expect_reads (spelled.wellFormed (opening.wellFormed proper)) rfl closed
      refine ⟨.parenthesized expression, .parenthesized wellFormed, Nat.le_refl 9,
        opening.append (spelled.append closing), ?_⟩
      rw [Stream.current_line, opening.lines]
      rfl
    all_goals cases success

/-- What is read as a list of arguments is spelled by as many expressions. -/
def SpellsArguments (stream rest : Stream) (trees : List Expr) (arguments : List Surface.Expr) :
    Prop :=
  (∀ argument ∈ arguments, argument.WellFormed) ∧
    stream.Reads (Surface.separated (Surface.Expr.spellings arguments)) rest ∧
    trees = Surface.Expr.desugarAll arguments stream.lines

private theorem argumentList_reads (accepted : ReadsRank nested 0) (allowed : Nat)
    {trees : List Expr} (proper : stream.WellFormed)
    (success : argumentList nested allowed stream = .ok (trees, rest)) :
    ∃ arguments, arguments ≠ [] ∧ arguments.length ≤ allowed ∧
      SpellsArguments stream rest trees arguments := by
  induction allowed generalizing stream trees with
  | zero => cases success
  | succ allowed ih =>
    simp only [argumentList, bind_eq_ok] at success
    obtain ⟨tree, middle, read, found, next, taken, success⟩ := success
    obtain ⟨first, wellFormed, _, spelled, rfl⟩ := accepted _ _ _ proper read
    have inside := spelled.wellFormed proper
    rcases take?_reads inside rfl taken with ⟨rfl, rfl, _⟩ | ⟨⟨token, rfl⟩, comma⟩
    · cases success
      exact ⟨[first], by simp, by simp, by simpa using wellFormed, spelled, rfl⟩
    · simp only [bind_eq_ok] at success
      obtain ⟨others, final, read, success⟩ := success
      cases success
      obtain ⟨arguments, some, few, each, following, rfl⟩ := ih (comma.wellFormed inside) read
      obtain ⟨second, arguments, rfl⟩ := List.exists_cons_of_ne_nil some
      refine ⟨first :: second :: arguments, by simp, Nat.succ_le_succ few,
        List.forall_mem_cons.mpr ⟨wellFormed, each⟩, spelled.append (comma.append following), ?_⟩
      rw [comma.lines, spelled.lines]
      rfl

private theorem callArguments_reads (accepted : ReadsRank nested 0) {trees : List Expr}
    (proper : stream.WellFormed) (success : callArguments nested stream = .ok (trees, rest)) :
    ∃ arguments closing, arguments.length ≤ 16 ∧ SpellsArguments stream closing trees arguments ∧
      closing.Reads [.mark .rightParen] rest := by
  rw [callArguments, bind_apply] at success
  by_cases atOnce : stream.current.kind = .rightParen
  · simp only [check_apply, atOnce, decide_true, ↓reduceIte, bind_eq_ok, pure_apply] at success
    obtain ⟨_, _, read, _, _, closed, success⟩ := success
    cases read
    cases success
    exact ⟨[], stream, by simp, ⟨by simp, reads_nil.mpr rfl, rfl⟩, expect_reads proper rfl closed⟩
  · simp only [check_apply, atOnce, decide_false, Bool.false_eq_true, ↓reduceIte,
      bind_eq_ok] at success
    obtain ⟨trees, closing, read, _, _, closed, success⟩ := success
    cases success
    obtain ⟨arguments, _, few, each, spelled, same⟩ :=
      argumentList_reads accepted maxArguments proper read
    exact ⟨arguments, closing, few, ⟨each, spelled, same⟩,
      expect_reads (spelled.wellFormed proper) rfl closed⟩

/-- The loop over calls and member accesses goes on with the expression read so far. -/
theorem suffixes_reads (accepted : ReadsRank nested 0) (count : Nat) {expression : Surface.Expr}
    {tree : Expr} (proper : start.WellFormed) (wellFormed : expression.WellFormed)
    (tight : 8 ≤ expression.rank) (spelled : start.Reads expression.spelling stream)
    (success : suffixes nested count (expression.desugar start.lines) stream = .ok (tree, rest)) :
    Spells 8 start rest tree := by
  induction count generalizing stream expression with
  | zero =>
    cases success
    exact ⟨expression, wellFormed, tight, spelled, rfl⟩
  | succ count ih =>
    rw [suffixes, bind_apply] at success
    simp only [peek_apply] at success
    have inside := spelled.wellFormed proper
    generalize found : stream.current.kind = kind at success
    cases kind
    case leftParen =>
      have opening := inside.reads_mark found rfl
      simp only [bind_eq_ok, advance_apply] at success
      obtain ⟨_, _, advanced, trees, middle, read, success⟩ := success
      cases advanced
      obtain ⟨arguments, closing, few, ⟨each, listed, rfl⟩, closed⟩ :=
        callArguments_reads accepted (opening.wellFormed inside) read
      refine ih (.call tight wellFormed few each) (Nat.le_refl 8)
        (spelled.append (opening.append (listed.append closed))) ?_
      rw [← success, opening.lines, spelled.lines, Surface.Expr.line_desugar]
      rfl
    case dot =>
      have mark := inside.reads_mark found rfl
      simp only [bind_eq_ok, advance_apply] at success
      obtain ⟨_, _, advanced, member, middle, read, success⟩ := success
      cases advanced
      have named := name_reads (mark.wellFormed inside) read
      refine ih (.member tight wellFormed) (Nat.le_refl 8) (spelled.append (mark.append named)) ?_
      rw [← success, Surface.Expr.line_desugar]
      rfl
    all_goals
      cases success
      exact ⟨expression, wellFormed, tight, spelled, rfl⟩

private theorem suffixed_reads (accepted : ReadsRank nested 0) : ReadsRank (suffixed nested) 8 := by
  intro stream rest tree proper success
  simp only [suffixed, bind_eq_ok, remaining_apply] at success
  obtain ⟨first, middle, read, count, next, counted, success⟩ := success
  cases counted
  obtain ⟨expression, wellFormed, tight, spelled, rfl⟩ :=
    primary_reads accepted _ _ _ proper read
  exact suffixes_reads accepted _ proper wellFormed (by omega) spelled success

private theorem unaryOperator?_some {kind : Kind} {operator : UnaryOperator}
    (found : unaryOperator? kind = some operator) : kind = operator.kind := by
  cases kind <;> cases found <;> rfl

private theorem unaryUpTo_reads (accepted : ReadsRank nested 0) (count : Nat) :
    ReadsRank (unaryUpTo nested count) 7 := by
  have asSuffixed : ReadsRank (suffixed nested) 7 := by
    intro stream rest tree proper success
    obtain ⟨expression, wellFormed, tight, spelled, same⟩ :=
      suffixed_reads accepted _ _ _ proper success
    exact ⟨expression, wellFormed, by omega, spelled, same⟩
  induction count with
  | zero => exact asSuffixed
  | succ count ih =>
    intro stream rest tree proper success
    rw [unaryUpTo, bind_apply] at success
    simp only [peek_apply] at success
    cases found : unaryOperator? stream.current.kind with
    | none =>
      simp only [found] at success
      exact asSuffixed _ _ _ proper success
    | some operator =>
      have mark : stream.Reads [.mark operator.kind] stream.advance :=
        proper.reads_mark (unaryOperator?_some found) (by cases operator <;> rfl)
      simp only [found, bind_eq_ok, advance_apply] at success
      obtain ⟨_, _, advanced, operand, middle, read, success⟩ := success
      cases advanced
      cases success
      obtain ⟨expression, wellFormed, tight, spelled, rfl⟩ :=
        ih _ _ _ (mark.wellFormed proper) read
      refine ⟨.unary operator expression, .unary tight wellFormed, Nat.le_refl 7,
        mark.append spelled, ?_⟩
      rw [Stream.current_line, mark.lines]
      rfl

private theorem unary_reads (accepted : ReadsRank nested 0) : ReadsRank (unary nested) 7 := by
  intro stream rest tree proper success
  simp only [unary, bind_apply, remaining_apply] at success
  exact unaryUpTo_reads accepted _ _ _ _ proper success

/-- The loop of one level goes on with the left operand read so far. -/
theorem binaryTail_reads {operators : List (Kind × BinaryOperator)} (level : Level rank operators)
    (tighter : ReadsRank operand (rank + 1)) (count : Nat) {expression : Surface.Expr} {tree : Expr}
    (proper : start.WellFormed) (wellFormed : expression.WellFormed)
    (tight : rank ≤ expression.rank) (spelled : start.Reads expression.spelling stream)
    (success : binaryTail operators operand count (expression.desugar start.lines) stream =
      .ok (tree, rest)) : Spells rank start rest tree := by
  induction count generalizing stream expression with
  | zero =>
    cases success
    exact ⟨expression, wellFormed, tight, spelled, rfl⟩
  | succ count ih =>
    have inside := spelled.wellFormed proper
    simp only [binaryTail, operator?, bind_apply, peek_apply] at success
    cases found : operators.lookup stream.current.kind with
    | none =>
      simp only [found, pure_apply] at success
      cases success
      exact ⟨expression, wellFormed, tight, spelled, rfl⟩
    | some operator =>
      obtain ⟨kind, same⟩ := (level _ _).mp found
      have mark : stream.Reads [.mark operator.kind] stream.advance :=
        inside.reads_mark kind.symm (by cases operator <;> rfl)
      simp only [found, bind_apply, advance_apply, pure_apply] at success
      cases read : operand stream.advance with
      | error error =>
        rw [read] at success
        cases success
      | ok result =>
        obtain ⟨right, middle⟩ := result
        simp only [read] at success
        obtain ⟨second, secondFormed, bound, behind, rfl⟩ :=
          tighter _ _ _ (mark.wellFormed inside) read
        refine ih (.binary (by omega) wellFormed (by omega) secondFormed) (Nat.le_of_eq same.symm)
          (spelled.append (mark.append behind)) ?_
        rw [← success, Surface.Expr.line_desugar, mark.lines, spelled.lines]
        rfl

private theorem binaryLevel_reads {operators : List (Kind × BinaryOperator)}
    (level : Level rank operators)
    (tighter : ReadsRank operand (rank + 1)) : ReadsRank (binaryLevel operators operand) rank := by
  intro stream rest tree proper success
  simp only [binaryLevel, bind_eq_ok, remaining_apply] at success
  obtain ⟨first, middle, read, count, next, counted, success⟩ := success
  cases counted
  obtain ⟨expression, wellFormed, tight, spelled, rfl⟩ := tighter _ _ _ proper read
  exact binaryTail_reads level tighter _ proper wellFormed (by omega) spelled success

private theorem levels_read (accepted : ReadsRank nested 0)
    (levels : List (List (Kind × BinaryOperator)))
    (ladder : Ladder rank levels) : ReadsRank (levels.foldr binaryLevel (unary nested)) rank := by
  induction levels generalizing rank with
  | nil =>
    have top : rank = 7 := ladder
    subst top
    exact unary_reads accepted
  | cons operators levels ih => exact binaryLevel_reads ladder.1 (ih ladder.2)

private theorem binary_reads (accepted : ReadsRank nested 0) : ReadsRank (binary nested) 1 :=
  levels_read accepted binaryLevels ladder_binaryLevels

private theorem eq_identifier {expression : Surface.Expr} {name : String} {line : Nat}
    {lines : List Nat}
    (same : expression.desugar lines = .identifier name line) : expression = .identifier name := by
  cases expression <;> simp only [Surface.Expr.desugar, reduceCtorEq] at same
  rw [(Expr.identifier.inj same).1]

private theorem assignment_reads (accepted : ReadsRank nested 0) :
    ReadsRank (assignment nested) 0 := by
  intro stream rest tree proper success
  simp only [assignment, bind_eq_ok] at success
  obtain ⟨target, middle, read, found, next, taken, success⟩ := success
  obtain ⟨expression, wellFormed, _, spelled, rfl⟩ := binary_reads accepted _ _ _ proper read
  have inside := spelled.wellFormed proper
  rcases take?_reads inside rfl taken with ⟨rfl, rfl, _⟩ | ⟨⟨token, rfl⟩, mark⟩
  · cases success
    exact ⟨expression, wellFormed, Nat.zero_le _, spelled, rfl⟩
  · simp only [bind_eq_ok] at success
    obtain ⟨value, final, read, success⟩ := success
    obtain ⟨second, secondFormed, _, following, rfl⟩ :=
      accepted _ _ _ (mark.wellFormed inside) read
    generalize target : expression.desugar stream.lines = tree at success
    cases tree
    case identifier name line =>
      obtain rfl := eq_identifier target
      cases success
      cases target
      refine ⟨.assign name second, .assign secondFormed, Nat.le_refl 0,
        spelled.append (mark.append following), ?_⟩
      rw [mark.lines, spelled.lines, List.drop_drop]
      rfl
    all_goals cases success

private theorem expressionUpTo_reads (depth : Nat) : ReadsRank (expressionUpTo depth) 0 := by
  induction depth with
  | zero =>
    intro stream rest tree proper success
    cases success
  | succ depth ih => exact assignment_reads ih

/-- What is read as an expression is spelled by one. -/
theorem expression_reads : ReadsRank Grammar.expression 0 := by
  intro stream rest tree proper success
  simp only [Grammar.expression, bind_apply, remaining_apply] at success
  exact expressionUpTo_reads _ _ _ _ proper success

end Scriptlet.Grammar
