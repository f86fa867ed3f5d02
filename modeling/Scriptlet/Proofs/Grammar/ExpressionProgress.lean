import Scriptlet.Proofs.Grammar.Rounds

/-! Expressions move on. An expression reads a token at least, as does every round of the loops for
arguments, calls and operators, so the bounds on them are never met. -/
namespace Scriptlet.Grammar

open Scriptlet.Grammar.Parser

variable {α β : Type}

theorem Parser.map_apply (change : α → β) (parser : Parser α) (stream : Stream) :
    (change <$> parser) stream = (parser stream).map fun read => (change read.1, read.2) := by
  change (parser stream >>= _) = _
  cases parser stream <;> rfl

/-- One more argument, and a comma if others follow. -/
def argumentRound (nested : Parser Expr) (read : List Expr) : Parser (ForInStep (List Expr)) := do
  if maxArguments ≤ read.length then fail .tooManyArguments
  else
    let first ← nested
    match ← take? .comma with
    | some _ => return .yield (read ++ [first])
    | none => return .done (read ++ [first])

/-- One more call or member access. -/
def suffixRound (nested : Parser Expr) (expression : Expr) : Parser (ForInStep Expr) := do
  match (← peek).kind with
  | .leftParen =>
    advance
    let arguments ← callArguments nested
    return .yield (.call expression arguments expression.line)
  | .dot =>
    advance
    let member ← name .member
    return .yield (.member expression member expression.line)
  | _ => return .done expression

/-- One more operator of a level with its right operand. -/
def operationRound (operators : List (Kind × BinaryOperator)) (operand : Parser Expr)
    (left : Expr) : Parser (ForInStep Expr) := do
  match ← operator? operators with
  | some operator => return .yield (.binary left operator (← operand) left.line)
  | none => return .done left

section Expressions

variable {nested other operand another : Parser Expr} {stream : Stream} {bound : Nat}

theorem kind_of_literal? {token : Token} {value : Value} (found : literal? token = some value) :
    token.kind ≠ .endOfFile := by
  unfold literal? at found
  intro ends
  rw [ends] at found
  cases found

private theorem primary_agree
    (inner : ∀ rest, rest.ahead.length < bound → Agree 1 nested other rest)
    (inside : stream.ahead.length ≤ bound) : Agree 1 (primary nested) (primary other) stream := by
  apply Agree.peek
  cases found : literal? stream.current with
  | some value => exact .bind (.advance (kind_of_literal? found)) fun _ rest _ => .pure _ rest
  | none =>
    generalize kindIs : stream.current.kind = kind
    cases kind
    case identifier =>
      have other : stream.current.kind ≠ .endOfFile := by simp [kindIs]
      split
      · contradiction
      · exact .bind (.advance other) fun _ rest _ => .pure _ rest
      · contradiction
      · exact .fail _ _
    case leftParen =>
      have other : stream.current.kind ≠ .endOfFile := by simp [kindIs]
      refine .bind (.advance other) fun _ rest shorter => ?_
      refine .bind ((inner rest (by omega)).any) fun _ rest _ => ?_
      exact (Agree.closed (by simp) _ _ rest).any
    all_goals exact .fail _ _

theorem argumentRound_agree (inner : Agree 1 nested other stream) (read : List Expr) :
    Agree 1 (argumentRound nested read) (argumentRound other read) stream := by
  unfold argumentRound
  split
  · exact .fail _ _
  · refine .bind inner fun _ rest _ => ?_
    refine .take? (by simp) (.pure _ rest) (fun _ _ => .pure _ _) (Nat.zero_le 1)

/-- Arguments are read in a loop that ends when there are too many. -/
theorem argumentList_rounds (nested : Parser Expr) {allowed : Nat} (read : List Expr)
    (limit : read.length + allowed = maxArguments) (stream : Stream) :
    Rounds (argumentRound nested) read stream
      (((read ++ ·) <$> argumentList nested allowed) stream) := by
  induction allowed generalizing read stream with
  | zero =>
    have full : maxArguments ≤ read.length := by omega
    rw [rounds_iff, argumentRound, if_pos full]
    rfl
  | succ allowed ih =>
    have room : ¬ maxArguments ≤ read.length := by omega
    rw [rounds_iff, argumentRound, if_neg room, argumentList, bind_apply, map_apply, bind_apply]
    cases nested stream with
    | error error => rfl
    | ok result =>
      obtain ⟨first, rest⟩ := result
      simp only [bind_apply, take?_apply]
      by_cases comma : rest.current.kind = .comma
      · have following := ih (read ++ [first]) (by simp; omega) rest.advance
        simp only [comma, ↓reduceIte, pure_apply]
        rw [map_apply] at following
        cases found : argumentList nested allowed rest.advance <;>
          simpa [found, bind_apply, Except.map] using following
      · simp [comma, Except.map]

theorem argumentList_loops (nested : Parser Expr) (stream : Stream) :
    Rounds (argumentRound nested) [] stream (argumentList nested maxArguments stream) := by
  have rounds := argumentList_rounds nested [] (Nat.zero_add maxArguments) stream
  simpa using rounds

private theorem argumentList_agree
    (inner : ∀ rest, rest.ahead.length < bound → Agree 1 nested other rest)
    (inside : stream.ahead.length < bound) :
    Agree 0 (argumentList nested maxArguments) (argumentList other maxArguments) stream := by
  refine agree_of_rounds ?_ (fun _ => argumentList_loops nested stream)
    (fun _ => argumentList_loops other stream)
  intro read rest shorter
  exact .inl (argumentRound_agree (inner rest (by omega)) read)

private theorem callArguments_agree
    (inner : ∀ rest, rest.ahead.length < bound → Agree 1 nested other rest)
    (inside : stream.ahead.length < bound) :
    Agree 1 (callArguments nested) (callArguments other) stream := by
  have behind (arguments : List Expr) (rest : Stream) : Agree 1
      (do Parser.expect .rightParen .afterArguments; return arguments)
      (do Parser.expect .rightParen .afterArguments; return arguments) rest :=
    .closed (by simp) _ _ rest
  apply Agree.check
  intro found
  cases found with
  | true => exact .before (.pure [] stream) fun arguments rest _ => behind arguments rest
  | false =>
    exact .before (argumentList_agree inner inside) fun arguments rest _ => behind arguments rest

private theorem suffixRound_done (nested : Parser Expr) (expression : Expr)
    (noCall : stream.current.kind ≠ .leftParen) (noMember : stream.current.kind ≠ .dot) :
    suffixRound nested expression stream = .ok (.done expression, stream) := by
  rw [suffixRound, bind_apply]
  simp only [peek_apply, pure_apply]

theorem suffixRound_turns
    (inner : ∀ rest, rest.ahead.length < bound → Agree 1 nested other rest)
    (inside : stream.ahead.length ≤ bound) (expression : Expr) :
    Turns expression (suffixRound nested expression) (suffixRound other expression) stream := by
  by_cases opens : stream.current.kind = .leftParen
  · left
    apply Agree.peek
    simp only [opens]
    refine .bind (.advance (by simp [opens])) fun _ rest shorter => ?_
    refine .bind ((callArguments_agree inner (by omega)).any) ?_
    exact fun _ rest _ => .pure _ rest
  · by_cases dot : stream.current.kind = .dot
    · left
      apply Agree.peek
      simp only [dot]
      refine .bind (.advance (by simp [dot])) fun _ rest _ => ?_
      exact .bind (.name _ rest) fun _ rest _ => .pure _ rest
    · exact .inr ⟨suffixRound_done nested expression opens dot,
        suffixRound_done other expression opens dot⟩

private theorem suffixes_succ (nested : Parser Expr) (count : Nat) (expression : Expr) :
    suffixes nested (count + 1) expression =
      suffixRound nested expression >>= goOn (suffixes nested count) := by
  rw [suffixes, suffixRound, bind_assoc]
  congr
  funext token
  generalize token.kind = kind
  cases kind <;> simp [goOn]

theorem suffixes_rounds (inner : ∀ rest, rest.ahead.length < bound → Agree 1 nested nested rest)
    {count : Nat} (expression : Expr) (ended : stream.Ended) (inside : stream.ahead.length ≤ bound)
    (enough : stream.ahead.length ≤ count) :
    Rounds (suffixRound nested) expression stream (suffixes nested count expression stream) := by
  refine rounds_of_bounded (suffixes nested)
    (fun state rest shorter => suffixRound_turns inner shorter state) ?_ (suffixes_succ nested)
    ended inside enough
  intro state stream ended empty
  have ends := Stream.current_ended ended empty
  exact .last (suffixRound_done nested state (by simp [ends]) (by simp [ends]))

private theorem suffixes_agree
    (inner : ∀ rest, rest.ahead.length < bound → Agree 1 nested other rest)
    {count room : Nat} (expression : Expr) (inside : stream.ahead.length ≤ bound)
    (enough : stream.ahead.length ≤ count) (also : stream.ahead.length ≤ room) :
    Agree 0 (suffixes nested count expression) (suffixes other room expression) stream := by
  refine agree_of_rounds (fun state rest shorter => suffixRound_turns inner (by omega) state)
    (fun ended => suffixes_rounds ?_ expression ended inside enough)
    (fun ended => suffixes_rounds ?_ expression ended inside also)
  · exact fun rest shorter => (inner rest shorter).left
  · exact fun rest shorter => (inner rest shorter).symm.left

private theorem suffixed_agree
    (inner : ∀ rest, rest.ahead.length < bound → Agree 1 nested other rest)
    (inside : stream.ahead.length ≤ bound) :
    Agree 1 (suffixed nested) (suffixed other) stream := by
  refine .bind (primary_agree inner inside) fun first rest shorter => ?_
  exact .remaining (suffixes_agree inner first (by omega) (Nat.le_refl _) (Nat.le_refl _))

/-- Unary operators over the parser of the operand behind the first one. -/
def unaryOver (nested operand : Parser Expr) : Parser Expr := do
  let token ← peek
  match unaryOperator? token.kind with
  | some operator =>
    advance
    return .unary operator (← operand) token.line
  | none => suffixed nested

private theorem unaryUpTo_succ (nested : Parser Expr) (count : Nat) :
    unaryUpTo nested (count + 1) = unaryOver nested (unaryUpTo nested count) := rfl

private theorem unaryOver_agree
    (inner : ∀ rest, rest.ahead.length < bound → Agree 1 nested other rest)
    (operands : ∀ rest, rest.ahead.length < stream.ahead.length → Agree 1 operand another rest)
    (inside : stream.ahead.length ≤ bound) :
    Agree 1 (unaryOver nested operand) (unaryOver other another) stream := by
  apply Agree.peek
  cases found : unaryOperator? stream.current.kind with
  | none => exact suffixed_agree inner inside
  | some operator =>
    have marked : stream.current.kind ≠ .endOfFile := by
      intro ends
      rw [ends] at found
      cases found
    refine .bind (.advance marked) fun _ rest shorter => ?_
    exact .bind ((operands rest (by omega)).any) fun _ rest _ => .pure _ rest

private theorem unaryUpTo_ended (nested : Parser Expr) (ended : stream.Ended)
    (empty : stream.ahead = [])
    (count : Nat) : unaryUpTo nested count stream = suffixed nested stream := by
  cases count with
  | zero => rfl
  | succ count =>
    rw [unaryUpTo_succ, unaryOver, bind_apply]
    simp only [peek_apply, Stream.current_ended ended empty]
    rfl

private theorem unaryUpTo_agree
    (inner : ∀ rest, rest.ahead.length < bound → Agree 1 nested other rest)
    {count room : Nat} (inside : stream.ahead.length ≤ bound)
    (enough : stream.ahead.length ≤ count) (also : stream.ahead.length ≤ room) :
    Agree 1 (unaryUpTo nested count) (unaryUpTo other room) stream := by
  refine Stream.within_bounds (motive := fun count room stream => stream.ahead.length ≤ bound →
    Agree 1 (unaryUpTo nested count) (unaryUpTo other room) stream) ?_ ?_ enough also inside
  · intro count room stream empty inside
    exact (suffixed_agree inner inside).congr
      (fun ended => unaryUpTo_ended nested ended empty count)
      (fun ended => unaryUpTo_ended other ended empty room)
  · intro count room stream ih inside
    exact unaryOver_agree inner (fun rest shorter => ih rest shorter (by omega)) inside

private theorem unary_agree (inner : ∀ rest, rest.ahead.length < bound → Agree 1 nested other rest)
    (inside : stream.ahead.length ≤ bound) : Agree 1 (unary nested) (unary other) stream :=
  .remaining (unaryUpTo_agree inner inside (Nat.le_refl _) (Nat.le_refl _))

section Levels

variable {operators : List (Kind × BinaryOperator)}

theorem operator?_apply (operators : List (Kind × BinaryOperator)) (stream : Stream) :
    operator? operators stream =
      match operators.lookup stream.current.kind with
      | some operator => .ok (some operator, stream.advance)
      | none => .ok (none, stream) := by
  rw [operator?, bind_apply]
  simp only [peek_apply]
  cases operators.lookup stream.current.kind <;> rfl

theorem operationRound_done (operand : Parser Expr) (left : Expr)
    (absent : operators.lookup stream.current.kind = none) :
    operationRound operators operand left stream = .ok (.done left, stream) := by
  rw [operationRound, bind_apply, operator?_apply, absent]
  rfl

theorem operationRound_turns (noEnd : operators.lookup .endOfFile = none)
    (operands : ∀ rest, rest.ahead.length < stream.ahead.length → Agree 1 operand another rest)
    (left : Expr) : Turns left (operationRound operators operand left)
      (operationRound operators another left) stream := by
  cases found : operators.lookup stream.current.kind with
  | none =>
    exact .inr ⟨operationRound_done operand left found, operationRound_done another left found⟩
  | some operator =>
    left
    have marked : stream.current.kind ≠ .endOfFile := by
      intro ends
      rw [ends, noEnd] at found
      cases found
    have opened (parser : Parser Expr) : operationRound operators parser left stream =
        (advance >>= fun _ => parser >>= fun right =>
          pure (ForInStep.yield (Expr.binary left operator right left.line))) stream := by
      rw [operationRound, bind_apply, operator?_apply, found]
      rfl
    refine Agree.congr ?_ (fun _ => opened operand) (fun _ => opened another)
    refine .bind (.advance marked) fun _ rest shorter => ?_
    exact .bind ((operands rest (by omega)).any) fun _ rest _ => .pure _ rest

private theorem binaryTail_succ (operators : List (Kind × BinaryOperator)) (operand : Parser Expr)
    (count : Nat) (left : Expr) : binaryTail operators operand (count + 1) left =
      operationRound operators operand left >>= goOn (binaryTail operators operand count) := by
  rw [binaryTail, operationRound, bind_assoc]
  congr
  funext found
  cases found <;> simp [goOn]

theorem binaryTail_rounds (noEnd : operators.lookup .endOfFile = none)
    (operands : ∀ rest, rest.ahead.length < bound → Agree 1 operand operand rest) {count : Nat}
    (left : Expr) (ended : stream.Ended) (inside : stream.ahead.length ≤ bound)
    (enough : stream.ahead.length ≤ count) : Rounds (operationRound operators operand) left stream
      (binaryTail operators operand count left stream) := by
  refine rounds_of_bounded (binaryTail operators operand) (fun state rest shorter => ?_) ?_
    (binaryTail_succ operators operand) ended inside enough
  · exact operationRound_turns noEnd (fun rest shorter => operands rest (by omega)) state
  · intro state stream ended empty
    have absent : operators.lookup stream.current.kind = none := by
      rw [Stream.current_ended ended empty, noEnd]
    exact .last (operationRound_done operand state absent)

private theorem binaryLevel_agree (noEnd : operators.lookup .endOfFile = none)
    (operands : ∀ rest, rest.ahead.length ≤ bound → Agree 1 operand another rest)
    (inside : stream.ahead.length ≤ bound) :
    Agree 1 (binaryLevel operators operand) (binaryLevel operators another) stream := by
  refine .bind (operands stream inside) fun left rest shorter => .remaining ?_
  have enough := Nat.le_refl rest.ahead.length
  refine agree_of_rounds (fun state rest _ => ?_)
    (fun ended => binaryTail_rounds noEnd ?_ left ended enough enough)
    (fun ended => binaryTail_rounds noEnd ?_ left ended enough enough)
  · exact operationRound_turns noEnd (fun rest _ => operands rest (by omega)) state
  · exact fun rest _ => (operands rest (by omega)).left
  · exact fun rest _ => (operands rest (by omega)).symm.left

theorem levels_agree (inner : ∀ rest, rest.ahead.length < bound → Agree 1 nested other rest)
    {levels : List (List (Kind × BinaryOperator))}
    (noEnd : ∀ operators ∈ levels, operators.lookup .endOfFile = none)
    (inside : stream.ahead.length ≤ bound) : Agree 1 (levels.foldr binaryLevel (unary nested))
      (levels.foldr binaryLevel (unary other)) stream := by
  induction levels generalizing stream with
  | nil => exact unary_agree inner inside
  | cons operators levels ih =>
    obtain ⟨first, others⟩ := List.forall_mem_cons.mp noEnd
    exact binaryLevel_agree first (fun rest shorter => ih others shorter) inside

end Levels

theorem binaryLevels_noEnd : ∀ operators ∈ binaryLevels, operators.lookup .endOfFile = none := by
  decide

private theorem binary_agree (inner : ∀ rest, rest.ahead.length < bound → Agree 1 nested other rest)
    (inside : stream.ahead.length ≤ bound) : Agree 1 (binary nested) (binary other) stream :=
  levels_agree inner binaryLevels_noEnd inside

/-- The value of an assignment stands behind its mark. -/
theorem assignment_agree (inner : ∀ rest, rest.ahead.length < bound → Agree 1 nested other rest)
    (inside : stream.ahead.length ≤ bound) :
    Agree 1 (assignment nested) (assignment other) stream := by
  refine .bind (binary_agree inner inside) fun target rest shorter => ?_
  refine .take? (by simp) (.pure _ rest) (fun rest behind => ?_) (Nat.zero_le 1)
  refine .bind ((inner rest (by omega)).any) fun value rest _ => ?_
  cases target
  case identifier => exact .pure _ rest
  all_goals exact .throw _ rest

private theorem suffixed_ended (nested : Parser Expr) (ended : stream.Ended)
    (empty : stream.ahead = []) :
    suffixed nested stream = .error ⟨.expectedExpression, stream.current⟩ := by
  have ends := Stream.current_ended ended empty
  have none : literal? stream.current = none := by
    rw [literal?, ends]
  have first : primary nested stream = .error ⟨.expectedExpression, stream.current⟩ := by
    rw [primary, bind_apply]
    simp only [peek_apply, none, ends]
    rfl
  rw [suffixed, bind_apply, first]

private theorem assignment_ended (nested : Parser Expr) (ended : stream.Ended)
    (empty : stream.ahead = []) :
    assignment nested stream = .error ⟨.expectedExpression, stream.current⟩ := by
  have operand : unary nested stream = .error ⟨.expectedExpression, stream.current⟩ := by
    rw [unary, bind_apply]
    simp only [remaining_apply]
    rw [unaryUpTo_ended nested ended empty, suffixed_ended nested ended empty]
  have target : binary nested stream = .error ⟨.expectedExpression, stream.current⟩ := by
    unfold binary
    induction binaryLevels with
    | nil => exact operand
    | cons operators levels ih => rw [List.foldr_cons, binaryLevel, bind_apply, ih]
  rw [assignment, bind_apply, target]

private theorem expressionUpTo_ended (ended : stream.Ended) (empty : stream.ahead = [])
    (depth : Nat) : expressionUpTo depth stream = .error ⟨.expectedExpression, stream.current⟩ := by
  cases depth with
  | zero => rfl
  | succ depth => exact assignment_ended _ ended empty

/-- Expressions cannot be nested deeper than there are tokens ahead. -/
theorem expressionUpTo_agree {depth room : Nat} (enough : stream.ahead.length ≤ depth)
    (also : stream.ahead.length ≤ room) :
    Agree 1 (expressionUpTo depth) (expressionUpTo room) stream := by
  refine Stream.within_bounds (motive := fun depth room stream =>
    Agree 1 (expressionUpTo depth) (expressionUpTo room) stream) ?_ ?_ enough also
  · intro depth room stream empty
    exact (Agree.fail .expectedExpression stream).congr
      (fun ended => expressionUpTo_ended ended empty depth)
      (fun ended => expressionUpTo_ended ended empty room)
  · exact fun depth room stream ih => assignment_agree ih (Nat.le_refl _)

theorem expression_agree (stream : Stream) : Agree 1 expression expression stream :=
  .remaining (expressionUpTo_agree (Nat.le_refl _) (Nat.le_refl _))

private theorem expressionUpTo_eq {depth : Nat} (ended : stream.Ended)
    (enough : stream.ahead.length ≤ depth) : expressionUpTo depth stream = expression stream :=
  (expressionUpTo_agree enough (Nat.le_refl _)).same ended

/-- Without a bound, an expression is an assignment over nested expressions. -/
theorem expression_eq (ended : stream.Ended) :
    expression stream = assignment expression stream := by
  rw [← expressionUpTo_eq ended (Nat.le_succ _), expressionUpTo]
  refine (assignment_agree (fun rest shorter => ?_) (Nat.le_refl _)).same ended
  exact (expressionUpTo_agree (Nat.le_of_lt shorter) (Nat.le_refl _))

/-- Without a bound, the operand of a unary operator begins with further ones. -/
theorem unary_eq (inner : ∀ rest, rest.ahead.length < bound → Agree 1 nested nested rest)
    (ended : stream.Ended) (inside : stream.ahead.length ≤ bound) :
    unary nested stream = unaryOver nested (unary nested) stream := by
  have more := (unaryUpTo_agree inner inside (Nat.le_refl _) (Nat.le_succ _)).same ended
  refine more.trans ((unaryOver_agree inner (fun rest shorter => ?_) inside).same ended)
  exact unaryUpTo_agree inner (by omega) (by omega) (Nat.le_refl _)

end Expressions

end Scriptlet.Grammar
