import Scriptlet.Grammar.Outline
import Scriptlet.Proofs.Grammar.ExpressionProgress

/-! Statements and declarations move on, as expressions do: each reads a token at least, and so does
every round of the loops for stars, parameters and the declarations of a block. -/
namespace Scriptlet.Grammar

open Scriptlet.Grammar.Parser

/-- One more star behind a type. -/
def starRound (count : Nat) : Parser (ForInStep Nat) := do
  match ← take? .star with
  | some _ => return .yield (count + 1)
  | none => return .done count

/-- One more parameter, and a comma if others follow. -/
def parameterRound (read : List Parameter) : Parser (ForInStep (List Parameter)) := do
  if maxArguments ≤ read.length then fail .tooManyParameters
  else
    let name ← name .parameter
    expect .colon .afterParameterName
    let type ← declaredType
    match ← take? .comma with
    | some _ => return .yield (read ++ [⟨name, type⟩])
    | none => return .done (read ++ [⟨name, type⟩])

/-- One more declaration of a block. -/
def blockRound (item : Parser Stmt) (read : List Stmt) : Parser (ForInStep (List Stmt)) := do
  let kind := (← peek).kind
  if kind = .rightBrace ∨ kind = .endOfFile then return .done read
  else return .yield (read ++ [← item])

section Declarations

variable {stream : Stream}

theorem starRound_turns (count : Nat) (stream : Stream) :
    Turns count (starRound count) (starRound count) stream := by
  by_cases star : stream.current.kind = .star
  · left
    have opened : starRound count stream =
        (advance >>= fun _ => pure (ForInStep.yield (count + 1))) stream := by
      rw [starRound, bind_apply, take?_apply, if_pos star]
      rfl
    refine Agree.congr ?_ (fun _ => opened) (fun _ => opened)
    exact .bind (.advance (by simp [star])) fun _ rest _ => .pure _ rest
  · have stops : starRound count stream = .ok (.done count, stream) := by
      rw [starRound, bind_apply, take?_other star]
      rfl
    exact .inr ⟨stops, stops⟩

theorem stars_rounds (ended : stream.Ended) :
    Rounds starRound 0 stream (stars stream.ahead.length stream) := by
  have enough := Nat.le_refl stream.ahead.length
  have first (state : Nat) (stream : Stream) (ended : stream.Ended) (empty : stream.ahead = []) :
      Rounds starRound state stream (((state + ·) <$> stars 0) stream) := by
    have noStar : stream.current.kind ≠ .star := by simp [Stream.current_ended ended empty]
    apply Rounds.last
    rw [starRound, bind_apply, take?_other noStar]
    rfl
  have step (count read : Nat) : (read + ·) <$> stars (count + 1) =
      starRound read >>= goOn fun read => (read + ·) <$> stars count := by
    rw [stars, starRound, map_bind, bind_assoc]
    congr
    funext found
    cases found <;> simp [goOn, Nat.add_assoc, Nat.add_comm 1]
  have rounds : Rounds starRound 0 stream (((0 + ·) <$> stars stream.ahead.length) stream) :=
    rounds_of_bounded (fun count read => (read + ·) <$> stars count)
      (fun state rest _ => starRound_turns state rest) first step ended enough enough
  simpa using rounds

private theorem declaredType_agree (stream : Stream) :
    Agree 0 declaredType declaredType stream := by
  refine .bind (.name _ stream) fun name rest _ => .remaining ?_
  refine .bind ?_ fun _ rest _ => .pure _ rest
  exact agree_of_rounds (fun count rest _ => starRound_turns count rest) stars_rounds stars_rounds

theorem parameterRound_agree (read : List Parameter) (stream : Stream) :
    Agree 1 (parameterRound read) (parameterRound read) stream := by
  unfold parameterRound
  split
  · exact .fail _ _
  · refine .before (.name _ stream) fun _ rest _ => ?_
    refine .bind (.expect (by simp) _ rest) fun _ rest _ => ?_
    refine .bind (declaredType_agree rest) fun _ rest _ => ?_
    exact .take? (by simp) (.pure _ rest) (fun _ _ => .pure _ _) (Nat.zero_le 1)

/-- Parameters are read in a loop that ends when there are too many. -/
theorem parameterList_rounds {allowed : Nat} (read : List Parameter)
    (limit : read.length + allowed = maxArguments) (stream : Stream) :
    Rounds parameterRound read stream (((read ++ ·) <$> parameterList allowed) stream) := by
  induction allowed generalizing read stream with
  | zero =>
    have full : maxArguments ≤ read.length := by omega
    rw [rounds_iff, parameterRound, if_pos full]
    rfl
  | succ allowed ih =>
    have room : ¬ maxArguments ≤ read.length := by omega
    rw [rounds_iff, parameterRound, if_neg room, parameterList, bind_apply, map_apply, bind_apply]
    cases name .parameter stream with
    | error error => rfl
    | ok result =>
      obtain ⟨name, rest⟩ := result
      simp only [bind_apply]
      cases expect .colon .afterParameterName rest with
      | error error => rfl
      | ok result =>
        obtain ⟨_, rest⟩ := result
        simp only
        cases declaredType rest with
        | error error => rfl
        | ok result =>
          obtain ⟨type, rest⟩ := result
          simp only [take?_apply]
          by_cases comma : rest.current.kind = .comma
          · have following := ih (read ++ [⟨name, type⟩]) (by simp; omega) rest.advance
            simp only [comma, ↓reduceIte, pure_apply]
            rw [map_apply] at following
            cases found : parameterList allowed rest.advance <;>
              simpa [found, bind_apply, Except.map] using following
          · simp [comma, Except.map]

theorem parameterList_loops (stream : Stream) :
    Rounds parameterRound [] stream (parameterList maxArguments stream) := by
  have rounds := parameterList_rounds [] (Nat.zero_add maxArguments) stream
  simpa using rounds

private theorem parameters_agree (stream : Stream) : Agree 1 parameters parameters stream := by
  have behind (list : List Parameter) (rest : Stream) : Agree 1
      (do Parser.expect .rightParen .afterParameters; return list)
      (do Parser.expect .rightParen .afterParameters; return list) rest :=
    .closed (by simp) _ _ rest
  apply Agree.check
  intro found
  cases found with
  | true => exact .before (.pure [] stream) fun list rest _ => behind list rest
  | false =>
    have list : Agree 0 (parameterList maxArguments) (parameterList maxArguments) stream :=
      agree_of_rounds (fun read rest _ => .inl (parameterRound_agree read rest))
        (fun _ => parameterList_loops stream) (fun _ => parameterList_loops stream)
    exact .before list fun list rest _ => behind list rest

private theorem variableDeclaration_agree (valueNeeded : Bool) (stream : Stream) :
    Agree 1 (variableDeclaration valueNeeded) (variableDeclaration valueNeeded) stream := by
  refine .peek (.before (.name _ stream) fun name rest _ => ?_)
  refine .bind (.expect (by simp) _ rest) fun _ rest _ => ?_
  refine .bind (declaredType_agree rest) fun type rest _ => ?_
  have behind (initializer : Option Expr) (rest : Stream) : Agree 0
      (do
        Parser.expect .semicolon .afterVariableDeclaration
        return Stmt.declare name type initializer stream.current.line)
      (do
        Parser.expect .semicolon .afterVariableDeclaration
        return Stmt.declare name type initializer stream.current.line) rest :=
    (Agree.closed (by simp) _ _ rest).any
  refine .take? (by simp) ?_ (fun rest _ => ?_) (Nat.zero_le 1)
  · cases valueNeeded with
    | true => exact .bind (.fail _ rest) fun value rest _ => behind value rest
    | false => exact .bind (.pure _ rest) fun value rest _ => behind value rest
  · refine .bind ((expression_agree rest).any) fun value rest _ => ?_
    exact .bind (.pure _ rest) fun value rest _ => behind value rest

private theorem expressionStatement_agree (stream : Stream) :
    Agree 1 expressionStatement expressionStatement stream := by
  refine .bind (expression_agree stream) fun _ rest _ => ?_
  exact (Agree.closed (by simp) _ _ rest).any

private theorem expressionUnless_agree (kind : Kind) (stream : Stream) :
    Agree 0 (expressionUnless kind) (expressionUnless kind) stream := by
  apply Agree.check
  intro found
  cases found with
  | true => exact .pure none stream
  | false =>
    refine .bind ((expression_agree stream).any) fun _ rest _ => ?_
    exact .pure _ rest

private theorem returnStatement_agree (line : Nat) (stream : Stream) :
    Agree 1 (returnStatement line) (returnStatement line) stream := by
  refine .before (expressionUnless_agree _ stream) fun _ rest _ => ?_
  exact .closed (by simp) _ _ rest

private theorem loopControl_agree (keyword : Token) (inLoop : Bool) (stream : Stream) :
    Agree 1 (loopControl keyword inLoop) (loopControl keyword inLoop) stream := by
  cases inLoop with
  | true => exact .expect (by simp) _ stream
  | false => exact .throw _ stream

private theorem condition_agree (keyword : Kind) (place : Place) (stream : Stream) :
    Agree 1 (condition keyword place) (condition keyword place) stream := by
  refine .bind (.expect (by simp) _ stream) fun _ rest _ => ?_
  refine .bind ((expression_agree rest).any) fun _ rest _ => ?_
  exact (Agree.closed (by simp) _ _ rest).any

private theorem forInitializer_agree (stream : Stream) :
    Agree 1 forInitializer forInitializer stream := by
  refine .take? (by simp) (.atDeclaration fun found => ?_) (fun rest _ => .pure none rest)
    (Nat.le_refl 1)
  cases found with
  | true => exact .bind (variableDeclaration_agree _ stream) fun _ rest _ => .pure _ rest
  | false => exact .bind (expressionStatement_agree stream) fun _ rest _ => .pure _ rest

private theorem forCondition_agree (stream : Stream) :
    Agree 1 forCondition forCondition stream := by
  refine .peek (.before (expressionUnless_agree _ stream) fun _ rest _ => ?_)
  exact .closed (by simp) _ _ rest

end Declarations

section Statements

variable {stream : Stream} {bound : Nat} {item another : Parser Stmt}
variable {declaration statement declared stated : Bool → Parser Stmt}

private theorem blockRound_done (item : Parser Stmt) (read : List Stmt)
    (closes : stream.current.kind = .rightBrace ∨ stream.current.kind = .endOfFile) :
    blockRound item read stream = .ok (.done read, stream) := by
  rw [blockRound, bind_apply]
  simp only [peek_apply]
  rw [if_pos closes]
  rfl

theorem blockRound_turns (inner : Agree 1 item another stream) (read : List Stmt) :
    Turns read (blockRound item read) (blockRound another read) stream := by
  by_cases closes : stream.current.kind = .rightBrace ∨ stream.current.kind = .endOfFile
  · exact .inr ⟨blockRound_done item read closes, blockRound_done another read closes⟩
  · left
    apply Agree.peek
    simp only [if_neg closes]
    exact .bind inner fun _ rest _ => .pure _ rest

theorem blockItems_rounds (inner : ∀ rest, rest.ahead.length < bound → Agree 1 item item rest)
    (ended : stream.Ended) (inside : stream.ahead.length < bound) :
    Rounds (blockRound item) [] stream (blockItems item stream.ahead.length stream) := by
  have enough := Nat.le_refl stream.ahead.length
  have first (read : List Stmt) (stream : Stream) (ended : stream.Ended)
      (empty : stream.ahead = []) :
      Rounds (blockRound item) read stream (((read ++ ·) <$> blockItems item 0) stream) := by
    apply Rounds.last
    simp [blockRound_done item read (.inr (Stream.current_ended ended empty))]
  have step (count : Nat) (read : List Stmt) : (read ++ ·) <$> blockItems item (count + 1) =
      blockRound item read >>= goOn fun read => (read ++ ·) <$> blockItems item count := by
    rw [blockItems, blockRound, map_bind, bind_assoc]
    congr
    funext token
    dsimp only
    split <;> simp [goOn]
  have rounds : Rounds (blockRound item) [] stream
      ((([] ++ ·) <$> blockItems item stream.ahead.length) stream) := by
    refine rounds_of_bounded (fun count read => (read ++ ·) <$> blockItems item count)
      (fun state rest shorter => ?_) first step ended enough enough
    exact blockRound_turns (inner rest (by omega)) state
  simpa using rounds

private theorem blockBody_agree
    (inner : ∀ rest, rest.ahead.length < bound → Agree 1 item another rest)
    (inside : stream.ahead.length < bound) :
    Agree 1 (blockBody item) (blockBody another) stream := by
  have items : Agree 0 (blockItems item stream.ahead.length)
      (blockItems another stream.ahead.length) stream := by
    refine agree_of_rounds (fun read rest _ => ?_)
      (fun ended => blockItems_rounds ?_ ended inside)
      (fun ended => blockItems_rounds ?_ ended inside)
    · exact blockRound_turns (inner rest (by omega)) read
    · exact fun rest shorter => (inner rest shorter).left
    · exact fun rest shorter => (inner rest shorter).symm.left
  refine .remaining (.before items fun _ rest _ => ?_)
  exact .closed (by simp) _ _ rest

private theorem ifStatement_agree
    (inner : ∀ rest, rest.ahead.length < bound → Agree 1 item another rest)
    (line : Nat) (inside : stream.ahead.length < bound) :
    Agree 1 (ifStatement line item) (ifStatement line another) stream := by
  refine .bind (condition_agree _ _ stream) fun test rest shorter => ?_
  refine .bind ((inner rest (by omega)).any) fun whenTrue rest _ => ?_
  refine .take? (by simp) ?_ (fun rest _ => ?_) (Nat.zero_le 1)
  · exact .bind (.pure _ rest) fun _ rest _ => .pure _ rest
  · refine .bind ((inner rest (by omega)).any) fun _ rest _ => ?_
    exact .bind (.pure _ rest) fun _ rest _ => .pure _ rest

private theorem whileStatement_agree
    (inner : ∀ rest, rest.ahead.length < bound → Agree 1 item another rest) (line : Nat)
    (inside : stream.ahead.length < bound) :
    Agree 1 (whileStatement line item) (whileStatement line another) stream := by
  refine .bind (condition_agree _ _ stream) fun test rest shorter => ?_
  exact .bind ((inner rest (by omega)).any) fun _ rest _ => .pure _ rest

private theorem forStatement_agree
    (inner : ∀ rest, rest.ahead.length < bound → Agree 1 item another rest)
    (line : Nat) (inside : stream.ahead.length < bound) :
    Agree 1 (forStatement line item) (forStatement line another) stream := by
  refine .bind (.expect (by simp) _ stream) fun _ rest _ => ?_
  refine .bind ((forInitializer_agree rest).any) fun _ rest _ => ?_
  refine .bind ((forCondition_agree rest).any) fun _ rest _ => ?_
  refine .bind (expressionUnless_agree _ rest) fun _ rest _ => ?_
  refine .bind ((Agree.expect (by simp) _ rest).any) fun _ rest _ => ?_
  exact .bind ((inner rest (by omega)).any) fun _ rest _ => .pure _ rest

private theorem functionDeclaration_agree
    (inner : ∀ rest, rest.ahead.length < bound → Agree 1 item another rest) (line : Nat)
    (inside : stream.ahead.length < bound) :
    Agree 1 (functionDeclaration line item) (functionDeclaration line another) stream := by
  refine .before (.name _ stream) fun name rest _ => ?_
  refine .bind (.expect (by simp) _ rest) fun _ rest _ => ?_
  refine .bind ((parameters_agree rest).any) fun _ rest _ => ?_
  refine .take? (by simp) (.fail _ rest) (fun rest _ => ?_) (Nat.zero_le 1)
  refine .bind (declaredType_agree rest) fun _ rest _ => .peek ?_
  refine .bind ((Agree.expect (by simp) _ rest).any) fun _ rest _ => ?_
  exact .bind ((blockBody_agree inner (by omega)).any) fun _ rest _ => .pure _ rest

private theorem statementOver_agree
    (declarations : ∀ inLoop rest, rest.ahead.length < stream.ahead.length →
      Agree 1 (declaration inLoop) (declared inLoop) rest)
    (statements : ∀ inLoop rest, rest.ahead.length < stream.ahead.length →
      Agree 1 (statement inLoop) (stated inLoop) rest) (inLoop : Bool) :
    Agree 1 (statementOver declaration statement inLoop) (statementOver declared stated inLoop)
      stream := by
  apply Agree.peek
  generalize kindIs : stream.current.kind = kind
  cases kind
  case forWord =>
    refine .bind (.advance (by simp [kindIs])) fun _ rest shorter => ?_
    exact (forStatement_agree (statements true) _ (by omega)).any
  case ifWord =>
    refine .bind (.advance (by simp [kindIs])) fun _ rest shorter => ?_
    exact (ifStatement_agree (statements inLoop) _ (by omega)).any
  case returnWord =>
    refine .bind (.advance (by simp [kindIs])) fun _ rest shorter => ?_
    exact (returnStatement_agree _ rest).any
  case whileWord =>
    refine .bind (.advance (by simp [kindIs])) fun _ rest shorter => ?_
    exact (whileStatement_agree (statements true) _ (by omega)).any
  case leftBrace =>
    refine .bind (.advance (by simp [kindIs])) fun _ rest shorter => ?_
    refine .bind ((blockBody_agree (declarations inLoop) (by omega)).any) ?_
    exact fun _ rest _ => .pure _ rest
  case breakWord =>
    refine .bind (.advance (by simp [kindIs])) fun _ rest shorter => ?_
    exact .bind ((loopControl_agree _ _ rest).any) fun _ rest _ => .pure _ rest
  case continueWord =>
    refine .bind (.advance (by simp [kindIs])) fun _ rest shorter => ?_
    exact .bind ((loopControl_agree _ _ rest).any) fun _ rest _ => .pure _ rest
  all_goals exact expressionStatement_agree stream

private theorem declarationOver_agree
    (declarations : ∀ inLoop rest, rest.ahead.length < stream.ahead.length →
      Agree 1 (declaration inLoop) (declared inLoop) rest)
    (statements : ∀ inLoop rest, rest.ahead.length < stream.ahead.length →
      Agree 1 (statement inLoop) (stated inLoop) rest) (inLoop : Bool) :
    Agree 1 (declarationOver declaration statement inLoop) (declarationOver declared stated inLoop)
      stream := by
  apply Agree.peek
  split
  · rename_i function
    refine .bind (.advance (by simp [function])) fun _ rest shorter => ?_
    exact (functionDeclaration_agree (declarations false) _ (by omega)).any
  · exact .fail _ stream
  · apply Agree.atDeclaration
    intro found
    cases found with
    | true => exact variableDeclaration_agree _ stream
    | false => exact statementOver_agree declarations statements inLoop

private theorem statementOver_ended (declaration statement : Bool → Parser Stmt) (inLoop : Bool)
    (ended : stream.Ended) (empty : stream.ahead = []) :
    statementOver declaration statement inLoop stream = expressionStatement stream := by
  rw [statementOver, bind_apply]
  simp only [peek_apply, Stream.current_ended ended empty]

private theorem declarationOver_ended (declaration statement : Bool → Parser Stmt) (inLoop : Bool)
    (ended : stream.Ended) (empty : stream.ahead = []) :
    declarationOver declaration statement inLoop stream = expressionStatement stream := by
  rw [declarationOver, bind_apply]
  simp only [peek_apply, Stream.current_ended ended empty, bind_apply, atDeclaration_apply, empty]
  exact statementOver_ended declaration statement inLoop ended empty

private theorem upTo_ended (ended : stream.Ended) (empty : stream.ahead = []) (depth : Nat)
    (inLoop : Bool) : declarationUpTo depth inLoop stream = expressionStatement stream ∧
      statementUpTo depth inLoop stream = expressionStatement stream := by
  cases depth with
  | zero =>
    rw [declarationUpTo, statementUpTo]
    exact ⟨rfl, rfl⟩
  | succ depth =>
    rw [declarationUpTo, statementUpTo]
    exact ⟨declarationOver_ended _ _ inLoop ended empty,
      statementOver_ended _ _ inLoop ended empty⟩

/-- Declarations and statements cannot be nested deeper than there are tokens ahead. -/
theorem upTo_agree {depth room : Nat} (enough : stream.ahead.length ≤ depth)
    (also : stream.ahead.length ≤ room) (inLoop : Bool) :
    Agree 1 (declarationUpTo depth inLoop) (declarationUpTo room inLoop) stream ∧
      Agree 1 (statementUpTo depth inLoop) (statementUpTo room inLoop) stream := by
  refine Stream.within_bounds (motive := fun depth room stream => ∀ inLoop,
    Agree 1 (declarationUpTo depth inLoop) (declarationUpTo room inLoop) stream ∧
      Agree 1 (statementUpTo depth inLoop) (statementUpTo room inLoop) stream) ?_ ?_
    enough also inLoop
  · intro depth room stream empty inLoop
    have start := expressionStatement_agree stream
    constructor
    · exact start.congr (fun ended => (upTo_ended ended empty depth inLoop).1)
        (fun ended => (upTo_ended ended empty room inLoop).1)
    · exact start.congr (fun ended => (upTo_ended ended empty depth inLoop).2)
        (fun ended => (upTo_ended ended empty room inLoop).2)
  · intro depth room stream ih inLoop
    rw [declarationUpTo, declarationUpTo, statementUpTo, statementUpTo]
    have declarations (inLoop : Bool) (rest : Stream)
        (shorter : rest.ahead.length < stream.ahead.length) := (ih rest shorter inLoop).1
    have statements (inLoop : Bool) (rest : Stream)
        (shorter : rest.ahead.length < stream.ahead.length) := (ih rest shorter inLoop).2
    exact ⟨declarationOver_agree declarations statements inLoop,
      statementOver_agree declarations statements inLoop⟩

end Statements

/-- A declaration inside or outside of a loop. -/
def declarationIn (inLoop : Bool) : Parser Stmt := do declarationUpTo (← remaining) inLoop

/-- A statement inside or outside of a loop. -/
def statementIn (inLoop : Bool) : Parser Stmt := do statementUpTo (← remaining) inLoop

section Unbounded

variable {stream : Stream}

theorem declarationIn_agree (inLoop : Bool) (stream : Stream) :
    Agree 1 (declarationIn inLoop) (declarationIn inLoop) stream :=
  .remaining (upTo_agree (Nat.le_refl _) (Nat.le_refl _) inLoop).1

theorem statementIn_agree (inLoop : Bool) (stream : Stream) :
    Agree 1 (statementIn inLoop) (statementIn inLoop) stream :=
  .remaining (upTo_agree (Nat.le_refl _) (Nat.le_refl _) inLoop).2

/-- Where the depth is enough for a stream, it is for what stands behind the next token. -/
theorem upTo_nested (stream : Stream) (inLoop : Bool) (rest : Stream)
    (shorter : rest.ahead.length < stream.ahead.length) :
    Agree 1 (declarationUpTo stream.ahead.length inLoop) (declarationIn inLoop) rest ∧
      Agree 1 (statementUpTo stream.ahead.length inLoop) (statementIn inLoop) rest :=
  upTo_agree (Nat.le_of_lt shorter) (Nat.le_refl _) inLoop

theorem declarationIn_eq (ended : stream.Ended) (inLoop : Bool) :
    declarationIn inLoop stream = declarationOver declarationIn statementIn inLoop stream := by
  have more := (upTo_agree (Nat.le_refl _) (Nat.le_succ stream.ahead.length) inLoop).1.same ended
  rw [declarationUpTo] at more
  refine more.trans ((declarationOver_agree ?_ ?_ inLoop).same ended)
  · exact fun inLoop rest shorter => (upTo_nested stream inLoop rest shorter).1
  · exact fun inLoop rest shorter => (upTo_nested stream inLoop rest shorter).2

theorem statementIn_eq (ended : stream.Ended) (inLoop : Bool) :
    statementIn inLoop stream = statementOver declarationIn statementIn inLoop stream := by
  have more := (upTo_agree (Nat.le_refl _) (Nat.le_succ stream.ahead.length) inLoop).2.same ended
  rw [statementUpTo] at more
  refine more.trans ((statementOver_agree ?_ ?_ inLoop).same ended)
  · exact fun inLoop rest shorter => (upTo_nested stream inLoop rest shorter).1
  · exact fun inLoop rest shorter => (upTo_nested stream inLoop rest shorter).2

end Unbounded

end Scriptlet.Grammar
