import Scriptlet.Grammar.Expression
import Scriptlet.Proofs.Surface.Desugar
import Scriptlet.Proofs.Token.WellFormed

/-! The ladder of ranks: which operators stand on which level, with which symbols an
expression begins, which it can hold, and which symbols go on with it. -/
namespace Scriptlet

namespace Grammar

/-- A table of operators that holds all operators of a rank and no others. -/
def Level (rank : Nat) (operators : List (Kind × BinaryOperator)) : Prop :=
  ∀ kind operator, operators.lookup kind = some operator ↔
    operator.kind = kind ∧ operator.rank = rank

/-- The levels from a rank up to that of the unary operators. -/
def Ladder : Nat → List (List (Kind × BinaryOperator)) → Prop
  | rank, [] => rank = 7
  | rank, operators :: rest => Level rank operators ∧ Ladder (rank + 1) rest

private theorem level_of_entries {rank : Nat} {operators : List (Kind × BinaryOperator)}
    (listed : ∀ entry ∈ operators, entry.2.kind = entry.1 ∧ entry.2.rank = rank)
    (all : ∀ operator : BinaryOperator, operator.rank = rank →
      operators.lookup operator.kind = some operator) : Level rank operators := by
  intro kind operator
  constructor
  · intro found
    obtain ⟨before, behind, same, _⟩ := List.lookup_eq_some_iff.mp found
    exact listed (kind, operator) (by simp [same])
  · rintro ⟨rfl, same⟩
    exact all operator same

theorem ladder_binaryLevels : Ladder 1 binaryLevels := by
  refine ⟨?_, ?_, ?_, ?_, ?_, ?_, rfl⟩ <;>
    refine level_of_entries (by simp [BinaryOperator.kind, BinaryOperator.rank]) ?_ <;>
    (intro operator same; cases operator <;> first | rfl | cases same)

theorem Ladder.rank_le {rank : Nat} {levels : List (List (Kind × BinaryOperator))}
    (ladder : Ladder rank levels) : rank ≤ 7 := by
  induction levels generalizing rank with
  | nil =>
    have top : rank = 7 := ladder
    omega
  | cons operators rest ih =>
    have next := ih ladder.2
    omega

end Grammar

/-- A token of this kind behind an expression of at least the given rank may belong to it. -/
def Kind.Continues (rank : Nat) (kind : Kind) : Prop :=
  (rank ≤ 8 ∧ (kind = leftParen ∨ kind = dot)) ∨
    (∃ operator : BinaryOperator, operator.kind = kind ∧ rank ≤ operator.rank) ∨
    (rank = 0 ∧ kind = equal)

/-- Kinds behind which every expression is complete. -/
def Kind.endsExpression : Kind → Bool
  | rightParen => true
  | comma => true
  | semicolon => true
  | _ => false

theorem Kind.not_continues {kind : Kind} (ends : kind.endsExpression = true) (rank : Nat) :
    ¬ kind.Continues rank := by
  rintro (⟨_, rfl | rfl⟩ | ⟨operator, rfl, _⟩ | ⟨_, rfl⟩)
  · cases ends
  · cases ends
  · cases operator <;> cases ends
  · cases ends

theorem Kind.Continues.mono {rank higher : Nat} {kind : Kind} (continues : kind.Continues higher)
    (below : rank ≤ higher) : kind.Continues rank := by
  rcases continues with ⟨bound, same⟩ | ⟨operator, same, bound⟩ | ⟨zero, same⟩
  · exact .inl ⟨by omega, same⟩
  · exact .inr (.inl ⟨operator, same, by omega⟩)
  · exact .inr (.inr ⟨by omega, same⟩)

theorem BinaryOperator.rank_le (operator : BinaryOperator) : operator.rank ≤ 6 := by
  cases operator <;> decide

theorem BinaryOperator.rank_pos (operator : BinaryOperator) : 0 < operator.rank := by
  cases operator <;> decide

/-- An operator of lower rank does not go on with a tighter operand. -/
theorem BinaryOperator.not_continues (operator : BinaryOperator) {rank : Nat}
    (lower : operator.rank < rank) : ¬ operator.kind.Continues rank := by
  rintro (⟨_, same | same⟩ | ⟨other, same, bound⟩ | ⟨_, same⟩)
  · cases operator <;> cases same
  · cases operator <;> cases same
  · -- Operators with one symbol are one operator, so the bound contradicts `lower`.
    have equal : other = operator := by
      cases other <;> cases operator <;> first | rfl | cases same
    subst equal
    omega
  · cases operator <;> cases same

namespace Surface

theorem Expr.spellings_eq_map (expressions : List Expr) :
    Expr.spellings expressions = expressions.map Expr.spelling := by
  induction expressions with
  | nil => rfl
  | cons first rest ih => rw [Expr.spellings, ih, List.map_cons]

private theorem mem_separated {symbol : Symbol} {parts : List (List Symbol)}
    (member : symbol ∈ separated parts) :
    symbol = .mark .comma ∨ ∃ part ∈ parts, symbol ∈ part := by
  fun_induction separated parts with
  | case1 => simp at member
  | case2 last => exact .inr ⟨last, by simp, member⟩
  | case3 first second rest ih =>
    rcases List.mem_append.mp member with inside | behind
    · exact .inr ⟨first, by simp, inside⟩
    · rcases List.mem_cons.mp behind with same | behind
      · exact .inl same
      · rcases ih behind with same | ⟨part, present, inside⟩
        · exact .inl same
        · exact .inr ⟨part, List.mem_cons_of_mem _ present, inside⟩

/-- A part is no longer than all parts with the commas between them. -/
theorem length_le_separated {part : List Symbol} {parts : List (List Symbol)}
    (member : part ∈ parts) : part.length ≤ (separated parts).length := by
  fun_induction separated parts with
  | case1 => simp at member
  | case2 last =>
    obtain rfl := List.mem_singleton.mp member
    exact Nat.le_refl _
  | case3 first second rest ih =>
    rw [List.length_append, List.length_cons]
    rcases List.mem_cons.mp member with rfl | member
    · omega
    · have bound := ih member
      omega

/-- Kinds with which an expression that is no operator application begins. -/
def startsOperand : Kind → Bool
  | .leftParen => true
  | kind => kind.carriesLiteral

/-- Kinds with which an expression begins. -/
def startsExpression : Kind → Bool
  | .bang => true
  | .minus => true
  | kind => startsOperand kind

theorem endsExpression_of_starts {kind : Kind} (starts : startsExpression kind = true) :
    kind.endsExpression = false := by
  cases kind <;> first | rfl | cases starts

theorem Expr.WellFormed.operand_head {expression : Expr} (proper : expression.WellFormed)
    (tight : 8 ≤ expression.rank) :
    ∃ first rest, expression.spelling = first :: rest ∧ startsOperand first.kind = true := by
  induction proper with
  | @literal value => exact ⟨_, _, rfl, by cases value <;> rfl⟩
  | identifier => exact ⟨_, _, rfl, rfl⟩
  | parenthesized nested => exact ⟨_, _, rfl, rfl⟩
  | member bound nested ih =>
    obtain ⟨first, rest, same, starts⟩ := ih bound
    exact ⟨first, _, by rw [Expr.spelling, same, List.cons_append], starts⟩
  | call bound nested few each ih _ =>
    obtain ⟨first, rest, same, starts⟩ := ih bound
    exact ⟨first, _, by rw [Expr.spelling, same, List.cons_append], starts⟩
  | unary bound nested => simp [Expr.rank] at tight
  | @binary left right operator bound =>
    have low := operator.rank_le
    simp only [Expr.rank] at tight
    omega
  | assign nested => simp [Expr.rank] at tight

theorem Expr.WellFormed.head {expression : Expr} (proper : expression.WellFormed) :
    ∃ first rest, expression.spelling = first :: rest ∧ startsExpression first.kind = true := by
  induction proper with
  | @literal value => exact ⟨_, _, rfl, by cases value <;> rfl⟩
  | identifier => exact ⟨_, _, rfl, rfl⟩
  | parenthesized nested => exact ⟨_, _, rfl, rfl⟩
  | member bound nested ih =>
    obtain ⟨first, rest, same, starts⟩ := ih
    exact ⟨first, _, by rw [Expr.spelling, same, List.cons_append], starts⟩
  | call bound nested few each ih _ =>
    obtain ⟨first, rest, same, starts⟩ := ih
    exact ⟨first, _, by rw [Expr.spelling, same, List.cons_append], starts⟩
  | @unary operator operand bound nested => exact ⟨_, _, rfl, by cases operator <;> rfl⟩
  | binary bound first tighter second ih _ =>
    obtain ⟨first, rest, same, starts⟩ := ih
    exact ⟨first, _, by rw [Expr.spelling, same, List.cons_append], starts⟩
  | assign nested => exact ⟨_, _, rfl, rfl⟩

/-- No colon stands in an expression, so none is mistaken for a declaration, and none of its
symbols ends a source. -/
theorem Expr.WellFormed.kinds {expression : Expr} (proper : expression.WellFormed) :
    ∀ symbol ∈ expression.spelling, symbol.kind ≠ .colon ∧ symbol.kind ≠ .endOfFile := by
  induction proper with
  | @literal value => cases value <;> simp [Expr.spelling, Value.kind]
  | identifier => simp [Expr.spelling]
  | parenthesized nested ih => simpa [Expr.spelling, or_imp, forall_and] using ih
  | member bound nested ih => simpa [Expr.spelling, or_imp, forall_and] using ih
  | @call callee arguments bound nested few each ih others =>
    have inside : ∀ symbol ∈ separated (Expr.spellings arguments),
        symbol.kind ≠ .colon ∧ symbol.kind ≠ .endOfFile := by
      intro symbol member
      rcases mem_separated member with rfl | ⟨part, present, member⟩
      · simp
      · rw [Expr.spellings_eq_map] at present
        obtain ⟨argument, given, rfl⟩ := List.mem_map.mp present
        exact others argument given symbol member
    intro symbol member
    simp only [Expr.spelling, List.mem_append, List.mem_cons, List.not_mem_nil, or_false] at member
    rcases member with member | rfl | member | rfl
    · exact ih symbol member
    · simp
    · exact inside symbol member
    · simp
  | @unary operator operand bound nested ih =>
    cases operator <;> simpa [Expr.spelling, UnaryOperator.kind, or_imp, forall_and] using ih
  | @binary left right operator bound first tighter second ih other =>
    intro symbol member
    simp only [Expr.spelling, List.mem_append, List.mem_cons] at member
    rcases member with member | rfl | member
    · exact ih symbol member
    · cases operator <;> simp [BinaryOperator.kind]
    · exact other symbol member
  | assign nested ih => simpa [Expr.spelling, or_imp, forall_and] using ih

/-- Kinds with which a statement or a declaration begins. -/
def startsStatement : Kind → Bool
  | .funcWord => true
  | .forWord => true
  | .ifWord => true
  | .returnWord => true
  | .whileWord => true
  | .leftBrace => true
  | .breakWord => true
  | .continueWord => true
  | kind => startsExpression kind

theorem Stmt.WellFormed.head {statement : Stmt} {inLoop : Bool}
    (proper : statement.WellFormed inLoop) :
    ∃ first rest, statement.spelling = first :: rest ∧ startsStatement first.kind = true := by
  cases proper with
  | evaluate nested =>
    obtain ⟨first, rest, same, starts⟩ := nested.head
    refine ⟨first, _, by rw [Stmt.spelling, same, List.cons_append], ?_⟩
    cases kind : first.kind <;> first | rfl | (rw [kind] at starts; cases starts)
  | function => exact ⟨_, _, rfl, rfl⟩
  | declare => exact ⟨_, _, rfl, rfl⟩
  | block => exact ⟨_, _, rfl, rfl⟩
  | returns => exact ⟨_, _, rfl, rfl⟩
  | branch => exact ⟨_, _, rfl, rfl⟩
  | choice => exact ⟨_, _, rfl, rfl⟩
  | whileLoop => exact ⟨_, _, rfl, rfl⟩
  | forLoop => exact ⟨_, _, rfl, rfl⟩
  | leave => exact ⟨_, _, rfl, rfl⟩
  | proceed => exact ⟨_, _, rfl, rfl⟩

/-- Only `for` loops begin with their keyword. -/
theorem Stmt.WellFormed.eq_forLoop {statement : Stmt} {inLoop : Bool} {symbol : Symbol}
    {symbols : List Symbol} (proper : statement.WellFormed inLoop)
    (same : statement.spelling = symbol :: symbols) (keyword : symbol.kind = .forWord) :
    ∃ initializer condition increment body,
      statement = .forLoop initializer condition increment body := by
  cases proper with
  | forLoop => exact ⟨_, _, _, _, rfl⟩
  | evaluate nested =>
    obtain ⟨first, others, begins, starts⟩ := nested.head
    rw [Stmt.spelling, begins] at same
    cases same
    rw [keyword] at starts
    cases starts
  | function => cases same; cases keyword
  | declare => cases same; cases keyword
  | block => cases same; cases keyword
  | returns => cases same; cases keyword
  | branch => cases same; cases keyword
  | choice => cases same; cases keyword
  | whileLoop => cases same; cases keyword
  | leave => cases same; cases keyword
  | proceed => cases same; cases keyword

/-- None of the symbols ends a source. -/
def Inner (symbols : List Symbol) : Prop := ∀ symbol ∈ symbols, symbol.kind ≠ .endOfFile

@[simp] theorem inner_nil : Inner [] := List.forall_mem_nil _

@[simp] theorem inner_cons {symbol : Symbol} {symbols : List Symbol} :
    Inner (symbol :: symbols) ↔ symbol.kind ≠ .endOfFile ∧ Inner symbols :=
  List.forall_mem_cons

@[simp] theorem inner_append {first second : List Symbol} :
    Inner (first ++ second) ↔ Inner first ∧ Inner second :=
  List.forall_mem_append

private theorem inner_separated {parts : List (List Symbol)} (each : ∀ part ∈ parts, Inner part) :
    Inner (separated parts) := by
  intro symbol member
  rcases mem_separated member with rfl | ⟨part, present, inside⟩
  · simp
  · exact each part present symbol inside

private theorem inner_type (type : DeclaredType) : Inner type.spelling := by
  refine inner_cons.mpr ⟨by simp, ?_⟩
  intro symbol member
  obtain rfl := (List.mem_replicate.mp member).2
  simp

private theorem Expr.WellFormed.inner {expression : Expr} (proper : expression.WellFormed) :
    Inner expression.spelling :=
  fun symbol member => (proper.kinds symbol member).2

private theorem inner_optional {value : Option Expr}
    (proper : ∀ expression ∈ value, expression.WellFormed) : Inner (optionalSpelling value) := by
  cases value with
  | none => exact inner_nil
  | some expression => exact (proper expression rfl).inner

private theorem inner_declaration {name : String} {type : DeclaredType} {value : Option Expr}
    (proper : ∀ expression ∈ value, expression.WellFormed) :
    Inner (declarationSpelling name type value) := by
  cases value with
  | none => simp [declarationSpelling, valueSpelling, inner_type]
  | some initial =>
    simp [declarationSpelling, valueSpelling, inner_type, (proper initial rfl).inner]

private theorem inner_initializer {initializer : Initializer} (proper : initializer.WellFormed) :
    Inner initializer.spelling := by
  cases initializer with
  | absent => simp [Initializer.spelling]
  | declaration name type value =>
    exact inner_declaration (by rintro expression ⟨⟩; exact proper)
  | expression value => simp [Initializer.spelling, Expr.WellFormed.inner proper]

theorem inner_spellings {statements : List Stmt}
    (each : ∀ statement ∈ statements, Inner statement.spelling) :
    Inner (Stmt.spellings statements) := by
  induction statements with
  | nil => exact inner_nil
  | cons first rest ih =>
    obtain ⟨head, tail⟩ := List.forall_mem_cons.mp each
    exact inner_append.mpr ⟨head, ih tail⟩

theorem Stmt.WellFormed.inner {statement : Stmt} {inLoop : Bool}
    (proper : statement.WellFormed inLoop) : Inner statement.spelling := by
  induction proper with
  | @function _ name parameters result body few each ih =>
    have listed : Inner (separated (parameters.map Parameter.spelling)) := by
      apply inner_separated
      intro part member
      obtain ⟨parameter, _, rfl⟩ := List.mem_map.mp member
      simp [Parameter.spelling, inner_type]
    simp [Stmt.spelling, headSpelling, listed, inner_type, inner_spellings ih]
  | declare initial => exact inner_declaration initial
  | block each ih => simp [Stmt.spelling, inner_spellings ih]
  | evaluate nested => simp [Stmt.spelling, nested.inner]
  | returns result => simp [Stmt.spelling, inner_optional result]
  | branch test _ first ih => simp [Stmt.spelling, conditionSpelling, test.inner, ih]
  | choice test _ _ first _ second ih other =>
    simp [Stmt.spelling, conditionSpelling, test.inner, ih, other]
  | whileLoop test _ nested ih => simp [Stmt.spelling, conditionSpelling, test.inner, ih]
  | forLoop start test step _ nested ih =>
    simp [Stmt.spelling, clausesSpelling, inner_initializer start, inner_optional test,
      inner_optional step, ih]
  | leave => simp [Stmt.spelling]
  | proceed => simp [Stmt.spelling]

end Surface

end Scriptlet
