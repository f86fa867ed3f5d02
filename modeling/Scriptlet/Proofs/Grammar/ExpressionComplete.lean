import Scriptlet.Proofs.Grammar.Ladder
import Scriptlet.Proofs.Grammar.Reading

/-! Every expression of the grammar is read from its spelling. Each parser of the ladder is
taken over a parser of nested expressions that reads all shorter ones; loops of a level are
followed along the left spine of the expression that they build. -/
namespace Scriptlet.Grammar

open Scriptlet.Grammar.Parser
open Scriptlet.Grammar.Stream (reads_cons reads_nil)

variable {nested operand : Parser Expr} {rank bound : Nat} {stream rest : Stream}

/-- The parser reads every expression of at least the given rank whose spelling is not too
long, unless what follows goes on with it. -/
def AcceptsRank (parser : Parser Expr) (rank bound : Nat) : Prop :=
  ∀ (expression : Surface.Expr) (stream rest : Stream), expression.WellFormed →
    rank ≤ expression.rank → expression.spelling.length ≤ bound →
    stream.Reads expression.spelling rest → ¬ rest.current.kind.Continues rank →
    parser stream = .ok (expression.desugar stream.lines, rest)

private theorem literal?_value {token : Token} {value : Value}
    (same : token.symbol = .value value) : literal? token = some value := by
  unfold literal?
  rw [kind_of_symbol same, literal_of_symbol same]
  cases value <;> rfl

private theorem literal?_name {token : Token} {name : String} (same : token.symbol = .name name) :
    literal? token = none := by
  unfold literal?
  rw [kind_of_symbol same]
  rfl

private theorem literal?_mark {token : Token} {kind : Kind} (same : token.symbol = .mark kind) :
    literal? token = none := by
  unfold literal?
  rw [kind_of_symbol same, literal_of_symbol same]
  cases kind <;> rfl

private theorem primary_accepts (inner : AcceptsRank nested 0 bound) :
    AcceptsRank (primary nested) 9 (bound + 1) := by
  intro expression stream rest proper tight short reads _
  cases proper with
  | literal =>
    obtain ⟨some, symbol, same⟩ := reads_cons.mp reads
    cases reads_nil.mp same
    simp only [primary, bind_apply, peek_apply, literal?_value symbol, advance_apply, pure_apply,
      Stream.current_line]
    rfl
  | identifier =>
    obtain ⟨some, symbol, same⟩ := reads_cons.mp reads
    cases reads_nil.mp same
    simp only [primary, bind_apply, peek_apply, literal?_name symbol, kind_of_symbol symbol,
      literal_of_symbol symbol, Symbol.name, advance_apply, pure_apply, Stream.current_line]
    rfl
  | @parenthesized expression proper =>
    obtain ⟨some, symbol, reads⟩ := reads_cons.mp reads
    obtain ⟨middle, reads, closing⟩ := reads.split _
    have length : expression.spelling.length ≤ bound := by
      simp only [Surface.Expr.spelling, List.length_cons, List.length_append] at short
      omega
    have ends : ¬ middle.current.kind.Continues 0 := by
      rw [current_of_reads closing]
      exact Kind.not_continues rfl 0
    have read := inner expression _ _ proper (Nat.zero_le _) length reads ends
    simp only [primary, bind_apply, peek_apply, literal?_mark symbol, kind_of_symbol symbol,
      Symbol.mark, advance_apply, read, expect_mark closing, pure_apply, Stream.current_line,
      Stream.lines_advance some]
    rfl
  | member => simp [Surface.Expr.rank] at tight
  | call => simp [Surface.Expr.rank] at tight
  | unary => simp [Surface.Expr.rank] at tight
  | @binary left right operator =>
    have low := operator.rank_le
    simp only [Surface.Expr.rank] at tight
    omega
  | assign => simp [Surface.Expr.rank] at tight

/-- Arguments with commas between them, in front of the closing parenthesis. -/
theorem argumentList_accepts (inner : AcceptsRank nested 0 bound)
    (arguments : List Surface.Expr) (allowed : Nat) (some : arguments ≠ [])
    (few : arguments.length ≤ allowed) (proper : ∀ argument ∈ arguments, argument.WellFormed)
    (short : ∀ argument ∈ arguments, argument.spelling.length ≤ bound)
    (reads : stream.Reads (Surface.separated (Surface.Expr.spellings arguments)) rest)
    (ends : rest.current.kind = .rightParen) :
    argumentList nested allowed stream =
      .ok (Surface.Expr.desugarAll arguments stream.lines, rest) := by
  induction arguments generalizing allowed stream with
  | nil => exact absurd rfl some
  | cons first others ih =>
    cases allowed with
    | zero => simp at few
    | succ allowed =>
      have firstProper := proper first (List.mem_cons_self ..)
      have firstShort := short first (List.mem_cons_self ..)
      cases others with
      | nil =>
        have closing : ¬ rest.current.kind.Continues 0 := by
          rw [ends]
          exact Kind.not_continues rfl 0
        have noComma : rest.current.kind ≠ .comma := by simp [ends]
        have read := inner first _ _ firstProper (Nat.zero_le _) firstShort reads closing
        simp only [argumentList, bind_apply, read, take?_other noComma, pure_apply]
        rfl
      | cons second others =>
        obtain ⟨middle, start, behind⟩ := reads.split _
        obtain ⟨next, comma, behind⟩ := behind.split [.mark .comma]
        have continues : ¬ middle.current.kind.Continues 0 := by
          rw [current_of_reads comma]
          exact Kind.not_continues rfl 0
        have read := inner first _ _ firstProper (Nat.zero_le _) firstShort start continues
        have following := ih allowed (by simp) (Nat.le_of_succ_le_succ few)
          (fun argument member => proper argument (List.mem_cons_of_mem _ member))
          (fun argument member => short argument (List.mem_cons_of_mem _ member)) behind
        simp only [argumentList, bind_apply, read, take?_mark comma, following, pure_apply,
          comma.lines, start.lines]
        rfl

private theorem callArguments_accepts (inner : AcceptsRank nested 0 bound)
    {arguments : List Surface.Expr} (few : arguments.length ≤ 16)
    (proper : ∀ argument ∈ arguments, argument.WellFormed)
    (short : ∀ argument ∈ arguments, argument.spelling.length ≤ bound)
    (reads : stream.Reads
      (Surface.separated (Surface.Expr.spellings arguments) ++ [.mark .rightParen]) rest) :
    callArguments nested stream =
      .ok (Surface.Expr.desugarAll arguments stream.lines, rest) := by
  obtain ⟨middle, list, closing⟩ := reads.split _
  cases arguments with
  | nil =>
    cases reads_nil.mp list
    have atOnce : stream.current.kind = .rightParen := current_of_reads closing
    simp only [callArguments, bind_apply, check_apply, atOnce, decide_true, ↓reduceIte, pure_apply,
      expect_mark closing]
    rfl
  | cons first others =>
    -- An argument never begins with the parenthesis that closes an empty list.
    have later : stream.current.kind ≠ .rightParen := by
      obtain ⟨symbol, symbols, same, starts⟩ := (proper first (List.mem_cons_self ..)).head
      have begins : ∃ symbols, Surface.separated (Surface.Expr.spellings (first :: others)) =
          symbol :: symbols := by
        cases others with
        | nil => exact ⟨symbols, same⟩
        | cons second others =>
          exact ⟨_, by rw [Surface.Expr.spellings, Surface.Expr.spellings, Surface.separated, same,
            List.cons_append]⟩
      obtain ⟨symbols, begins⟩ := begins
      rw [begins] at list
      rw [current_of_reads list]
      rintro closed
      rw [closed] at starts
      cases starts
    have read := argumentList_accepts inner (first :: others) maxArguments (by simp) few proper
      short list (current_of_reads closing)
    simp only [callArguments, bind_apply, check_apply, later, decide_false, Bool.false_eq_true,
      ↓reduceIte, read, expect_mark closing, pure_apply]

private theorem suffixes_stop (count : Nat) (expression : Expr)
    (ends : ¬ stream.current.kind.Continues 8) :
    suffixes nested count expression stream = .ok (expression, stream) := by
  cases count with
  | zero => rfl
  | succ count =>
    have noCall : stream.current.kind ≠ .leftParen :=
      fun same => ends (.inl ⟨Nat.le_refl 8, .inl same⟩)
    have noMember : stream.current.kind ≠ .dot :=
      fun same => ends (.inl ⟨Nat.le_refl 8, .inr same⟩)
    simp only [suffixes, bind_apply, peek_apply, pure_apply]

private theorem suffixed_primary (inner : AcceptsRank nested 0 bound) {expression : Surface.Expr}
    (proper : expression.WellFormed) (tight : 9 ≤ expression.rank)
    (short : expression.spelling.length ≤ bound + 1) (reads : stream.Reads expression.spelling rest)
    :
    suffixed nested stream =
      suffixes nested rest.ahead.length (expression.desugar stream.lines) rest := by
  have nothing : ¬ rest.current.kind.Continues 9 := by
    rintro (⟨high, _⟩ | ⟨operator, _, high⟩ | ⟨zero, _⟩)
    · omega
    · have low := operator.rank_le
      omega
    · omega
  have read := primary_accepts inner expression _ _ proper tight short reads nothing
  simp only [suffixed, bind_apply, read, remaining_apply]

/-- The loop over calls and member accesses arrives at every expression that it can build,
with rounds left for all tokens behind it. -/
theorem suffixed_arrives (inner : AcceptsRank nested 0 bound) {expression : Surface.Expr}
    (proper : expression.WellFormed) (tight : 8 ≤ expression.rank)
    (short : expression.spelling.length ≤ bound + 1)
    (reads : stream.Reads expression.spelling rest) :
    ∃ count, rest.ahead.length ≤ count ∧
      suffixed nested stream = suffixes nested count (expression.desugar stream.lines) rest := by
  induction proper generalizing rest with
  | literal => exact ⟨_, Nat.le_refl _, suffixed_primary inner .literal (Nat.le_refl 9) short reads⟩
  | identifier =>
    exact ⟨_, Nat.le_refl _, suffixed_primary inner .identifier (Nat.le_refl 9) short reads⟩
  | parenthesized proper =>
    exact ⟨_, Nat.le_refl _,
      suffixed_primary inner (.parenthesized proper) (Nat.le_refl 9) short reads⟩
  | @member object name loose proper ih =>
    obtain ⟨middle, start, behind⟩ := reads.split _
    obtain ⟨dot, named, _⟩ := behind.mark
    simp only [Surface.Expr.spelling, List.length_append] at short
    obtain ⟨count, enough, arrived⟩ := ih loose (by omega) start
    have left := behind.length
    simp only [List.length_cons, List.length_nil] at left
    obtain ⟨count, rfl⟩ : ∃ fewer, count = fewer + 1 := ⟨count - 1, by omega⟩
    refine ⟨count, by omega, ?_⟩
    rw [arrived]
    simp only [suffixes, bind_apply, peek_apply, dot, advance_apply, name_name named,
      Surface.Expr.line_desugar]
    rfl
  | @call callee arguments loose proper few each ih _ =>
    obtain ⟨middle, start, behind⟩ := reads.split _
    obtain ⟨paren, listed, lines⟩ := behind.mark
    simp only [Surface.Expr.spelling, List.length_append, List.length_cons] at short
    obtain ⟨count, enough, arrived⟩ := ih loose (by omega) start
    have left := behind.length
    simp only [List.length_append, List.length_cons, List.length_nil] at left
    obtain ⟨count, rfl⟩ : ∃ fewer, count = fewer + 1 := ⟨count - 1, by omega⟩
    refine ⟨count, by omega, ?_⟩
    have each_short : ∀ argument ∈ arguments, argument.spelling.length ≤ bound := by
      intro argument member
      have part := Surface.length_le_separated
        (Surface.Expr.spellings_eq_map arguments ▸ List.mem_map_of_mem member)
      omega
    have read := callArguments_accepts inner few each each_short listed
    rw [arrived]
    simp only [suffixes, bind_apply, peek_apply, paren, advance_apply, read, lines, start.lines,
      Surface.Expr.line_desugar]
    rfl
  | unary => simp [Surface.Expr.rank] at tight
  | @binary left right operator =>
    have low := operator.rank_le
    simp only [Surface.Expr.rank] at tight
    omega
  | assign => simp [Surface.Expr.rank] at tight

private theorem suffixed_accepts (inner : AcceptsRank nested 0 bound) :
    AcceptsRank (suffixed nested) 8 (bound + 1) := by
  intro expression stream rest proper tight short reads ends
  obtain ⟨count, _, arrived⟩ := suffixed_arrives inner proper tight short reads
  rw [arrived, suffixes_stop count _ ends]

private theorem unaryOperator?_kind (operator : UnaryOperator) :
    unaryOperator? operator.kind = some operator := by
  cases operator <;> rfl

private theorem unaryOperator?_operand {kind : Kind} (starts : Surface.startsOperand kind = true) :
    unaryOperator? kind = none := by
  cases kind <;> first | rfl | cases starts

private theorem unaryUpTo_accepts (inner : AcceptsRank nested 0 bound) (count : Nat) :
    AcceptsRank (unaryUpTo nested count) 7 (min count (bound + 1)) := by
  induction count with
  | zero =>
    intro expression stream rest proper _ short _ _
    obtain ⟨first, symbols, same, _⟩ := proper.head
    simp [same] at short
  | succ count ih =>
    intro expression stream rest proper tight short reads ends
    by_cases suffix : 8 ≤ expression.rank
    · obtain ⟨first, symbols, same, starts⟩ := proper.operand_head suffix
      have noOperator : unaryOperator? stream.current.kind = none := by
        rw [same] at reads
        rw [current_of_reads reads]
        exact unaryOperator?_operand starts
      have read := suffixed_accepts inner expression _ _ proper suffix (by omega) reads
        (fun continues => ends (continues.mono (by omega)))
      simp only [unaryUpTo, bind_apply, peek_apply, noOperator, read]
    · cases proper with
      | @unary operator operand loose proper =>
        obtain ⟨mark, start, lines⟩ := reads.mark
        simp only [Surface.Expr.spelling, List.length_cons] at short
        have read := ih operand _ _ proper loose (by omega) start ends
        simp only [unaryUpTo, bind_apply, peek_apply, mark, unaryOperator?_kind, advance_apply,
          read, pure_apply, Stream.current_line, lines]
        rfl
      | @binary left right operator =>
        have low := operator.rank_le
        simp only [Surface.Expr.rank] at tight
        omega
      | assign => simp [Surface.Expr.rank] at tight
      | literal => exact absurd (by decide : 8 ≤ 9) suffix
      | identifier => exact absurd (by decide : 8 ≤ 9) suffix
      | parenthesized => exact absurd (by decide : 8 ≤ 9) suffix
      | member => exact absurd (Nat.le_refl 8) suffix
      | call => exact absurd (Nat.le_refl 8) suffix

private theorem unary_accepts (inner : AcceptsRank nested 0 bound) :
    AcceptsRank (unary nested) 7 (bound + 1) := by
  intro expression stream rest proper tight short reads ends
  have length := reads.length
  simp only [unary, bind_apply, remaining_apply]
  exact unaryUpTo_accepts inner _ expression _ _ proper tight (by omega) reads ends

private theorem binaryTail_stop {operators : List (Kind × BinaryOperator)}
    (level : Level rank operators) (count : Nat) (left : Expr)
    (ends : ¬ stream.current.kind.Continues rank) :
    binaryTail operators operand count left stream = .ok (left, stream) := by
  cases count with
  | zero => rfl
  | succ count =>
    have noOperator : operators.lookup stream.current.kind = none := by
      cases found : operators.lookup stream.current.kind with
      | none => rfl
      | some operator =>
        obtain ⟨kind, same⟩ := (level _ _).mp found
        exact absurd (.inr (.inl ⟨operator, kind, by omega⟩)) ends
    simp only [binaryTail, operator?, bind_apply, peek_apply, noOperator, pure_apply]

/-- The loop of one level arrives at every expression of its rank, with rounds left for all
tokens behind it. -/
theorem binaryLevel_arrives {operators : List (Kind × BinaryOperator)}
    (level : Level rank operators) (positive : 0 < rank) (low : rank < 7)
    (tighter : AcceptsRank operand (rank + 1) bound) {expression : Surface.Expr}
    (proper : expression.WellFormed) (tight : rank ≤ expression.rank)
    (short : expression.spelling.length ≤ bound)
    (reads : stream.Reads expression.spelling rest)
    (ends : ¬ rest.current.kind.Continues (rank + 1)) :
    ∃ count, rest.ahead.length ≤ count ∧
      binaryLevel operators operand stream =
        binaryTail operators operand count (expression.desugar stream.lines) rest := by
  have atOnce {expression : Surface.Expr} {rest : Stream} (proper : expression.WellFormed)
      (above : rank + 1 ≤ expression.rank) (short : expression.spelling.length ≤ bound)
      (reads : stream.Reads expression.spelling rest)
      (ends : ¬ rest.current.kind.Continues (rank + 1)) :
      ∃ count, rest.ahead.length ≤ count ∧
        binaryLevel operators operand stream =
          binaryTail operators operand count (expression.desugar stream.lines) rest := by
    have read := tighter expression _ _ proper above short reads ends
    refine ⟨rest.ahead.length, Nat.le_refl _, ?_⟩
    simp only [binaryLevel, bind_apply, read, remaining_apply]
  induction proper generalizing rest with
  | literal => exact atOnce .literal (Nat.le_trans low (by decide : 7 ≤ 9)) short reads ends
  | identifier => exact atOnce .identifier (Nat.le_trans low (by decide : 7 ≤ 9)) short reads ends
  | parenthesized proper =>
    exact atOnce (.parenthesized proper) (Nat.le_trans low (by decide : 7 ≤ 9)) short reads ends
  | member loose proper =>
    exact atOnce (.member loose proper) (Nat.le_trans low (by decide : 7 ≤ 8)) short reads ends
  | call loose proper few each =>
    exact atOnce (.call loose proper few each) (Nat.le_trans low (by decide : 7 ≤ 8)) short reads
      ends
  | unary loose proper => exact atOnce (.unary loose proper) low short reads ends
  | assign => exact absurd tight (Nat.not_le_of_lt positive)
  | @binary left right operator loose first more second ih _ =>
    by_cases above : rank + 1 ≤ operator.rank
    · exact atOnce (.binary loose first more second) above short reads ends
    · have same : operator.rank = rank := Nat.le_antisymm (by omega) tight
      obtain ⟨middle, start, behind⟩ := reads.split _
      obtain ⟨mark, finish, lines⟩ := behind.mark
      simp only [Surface.Expr.spelling, List.length_append, List.length_cons] at short
      have separate : ¬ middle.current.kind.Continues (rank + 1) := by
        rw [mark]
        exact operator.not_continues (by omega)
      obtain ⟨count, enough, arrived⟩ := ih (by omega) (by omega) start separate
      have left := behind.length
      simp only [List.length_cons] at left
      obtain ⟨count, rfl⟩ : ∃ fewer, count = fewer + 1 := ⟨count - 1, by omega⟩
      have found : operators.lookup operator.kind = some operator := (level _ _).mpr ⟨rfl, same⟩
      have read := tighter right _ _ second (by omega) (by omega) finish ends
      refine ⟨count, by omega, ?_⟩
      rw [arrived]
      simp only [binaryTail, operator?, bind_apply, peek_apply, mark, found, advance_apply,
        pure_apply, read, lines, start.lines, Surface.Expr.line_desugar]
      rfl

private theorem levels_accept (inner : AcceptsRank nested 0 bound)
    (levels : List (List (Kind × BinaryOperator))) (ladder : Ladder rank levels)
    (positive : 0 < rank) :
    AcceptsRank (levels.foldr binaryLevel (unary nested)) rank (bound + 1) := by
  induction levels generalizing rank with
  | nil =>
    have top : rank = 7 := ladder
    subst top
    exact unary_accepts inner
  | cons operators levels ih =>
    intro expression stream rest proper tight short reads ends
    have low := ladder.2.rank_le
    obtain ⟨count, _, arrived⟩ := binaryLevel_arrives ladder.1 positive low
      (ih ladder.2 (Nat.succ_pos _)) proper tight short reads
      (fun continues => ends (continues.mono (Nat.le_succ _)))
    rw [List.foldr_cons, arrived, binaryTail_stop ladder.1 count _ ends]

private theorem binary_accepts (inner : AcceptsRank nested 0 bound) :
    AcceptsRank (binary nested) 1 (bound + 1) :=
  levels_accept inner binaryLevels ladder_binaryLevels Nat.one_pos

private theorem assignment_accepts (inner : AcceptsRank nested 0 bound) :
    AcceptsRank (assignment nested) 0 (bound + 1) := by
  intro expression stream rest proper _ short reads ends
  by_cases operation : 1 ≤ expression.rank
  · have noMark : rest.current.kind ≠ .equal := fun same => ends (.inr (.inr ⟨rfl, same⟩))
    have read := binary_accepts inner expression _ _ proper operation short reads
      (fun continues => ends (continues.mono (Nat.zero_le _)))
    simp only [assignment, bind_apply, read, take?_other noMark, pure_apply]
  · cases proper with
    | @assign name value proper =>
      obtain ⟨middle, start, behind⟩ := reads.split [.name name]
      obtain ⟨next, mark, finish⟩ := behind.split [.mark .equal]
      simp only [Surface.Expr.spelling, List.length_cons] at short
      have noOperator : ¬ middle.current.kind.Continues 1 := by
        rw [current_of_reads mark]
        rintro (⟨_, same | same⟩ | ⟨operator, same, _⟩ | ⟨one, _⟩)
        · cases same
        · cases same
        · cases operator <;> cases same
        · cases one
      have target := binary_accepts inner (.identifier name) _ _ .identifier (by decide : 1 ≤ 9)
        (by simp [Surface.Expr.spelling]) start noOperator
      have read := inner value _ _ proper (Nat.zero_le _) (by omega) finish ends
      simp only [assignment, bind_apply, target, take?_mark mark, read, pure_apply,
        Surface.Expr.desugar, mark.lines, start.lines, List.drop_drop]
      rfl
    | binary => exact absurd (BinaryOperator.rank_pos _) operation
    | literal => exact absurd (by decide : 1 ≤ 9) operation
    | identifier => exact absurd (by decide : 1 ≤ 9) operation
    | parenthesized => exact absurd (by decide : 1 ≤ 9) operation
    | member => exact absurd (by decide : 1 ≤ 8) operation
    | call => exact absurd (by decide : 1 ≤ 8) operation
    | unary => exact absurd (by decide : 1 ≤ 7) operation

private theorem expressionUpTo_accepts (depth : Nat) :
    AcceptsRank (expressionUpTo depth) 0 depth := by
  induction depth with
  | zero =>
    intro expression stream rest proper _ short _ _
    obtain ⟨first, symbols, same, _⟩ := proper.head
    simp [same] at short
  | succ depth ih => exact assignment_accepts ih

/-- An expression is read from its spelling when nothing behind it goes on with it. -/
theorem expression_accepts {expression : Surface.Expr} (proper : expression.WellFormed)
    (reads : stream.Reads expression.spelling rest)
    (ends : ¬ rest.current.kind.Continues 0) :
    Grammar.expression stream = .ok (expression.desugar stream.lines, rest) := by
  have length := reads.length
  simp only [Grammar.expression, bind_apply, remaining_apply]
  exact expressionUpTo_accepts _ expression _ _ proper (Nat.zero_le _) (by omega) reads ends

end Scriptlet.Grammar
