import Mathlib.Data.Nat.Find
import Mathlib.Tactic.IntervalCases
import Scriptlet.Proofs.Except
import Scriptlet.Proofs.Grammar.Lookahead
import Scriptlet.Proofs.Grammar.Totality

/-! The first error of a source depends on the tokens up to it only. Every parser of the grammar is
settled by what it reads: behind a name that may begin a declaration, the second token is looked
at, but neither an expression nor a declaration can fail at such a name, so that nothing is told
before that token has been read. -/
namespace Scriptlet.Grammar

open Scriptlet.Grammar.Parser

/-- What a parser does is settled where fewer tokens than so many stand ahead. -/
def Parser.SettledBelow {α : Type} (bound : Nat) (parser : Parser α) : Prop :=
  ∀ rest : Stream, rest.WellFormed → rest.ahead.length < bound → parser.Settled 0 rest

section Expressions

variable {stream : Stream} {bound : Nat}

private theorem primary_settled (inner : expression.SettledBelow bound) (proper : stream.WellFormed)
    (inside : stream.ahead.length ≤ bound) : (primary expression).Settled stream.lead stream := by
  apply Settled.peek proper
  cases found : literal? stream.current with
  | some value =>
    exact .advancing proper (kind_of_literal? found) stream.lead_le_one fun rest _ _ =>
      .pure _ rest
  | none =>
    by_cases isName : stream.current.kind = .identifier
    · have named := proper.identifier?.mpr isName
      rw [Token.identifier?] at named
      split
      · contradiction
      · exact .advancing proper (by simp [isName]) stream.lead_le_one fun rest _ _ => .pure _ rest
      · simp_all
      · simp_all
    · rw [Stream.lead_other isName]
      split
      · contradiction
      · contradiction
      · rename_i opens
        refine .advancing proper (by simp [opens]) (Nat.zero_le 1) fun rest fits shorter => ?_
        refine (inner rest fits (by omega)).bind fits fun _ rest fits _ => ?_
        exact .closed (by simp) _ _ fits
      · exact .fail _ stream

private theorem argumentRound_settled (inner : expression.Settled 0 stream)
    (proper : stream.WellFormed)
    (read : List Expr) : (argumentRound expression read).Settled 0 stream := by
  unfold argumentRound
  split
  · exact .fail _ stream
  · refine inner.bind proper fun _ rest fits _ => ?_
    exact .take? fits (by simp) (.pure _ rest) (fun _ _ _ => .pure _ _) (Nat.zero_le 1)

private theorem callArguments_settled (inner : expression.SettledBelow bound)
    (proper : stream.WellFormed)
    (inside : stream.ahead.length < bound) : (callArguments expression).Settled 0 stream := by
  have behind (arguments : List Expr) {rest : Stream} (fits : rest.WellFormed) : Settled 0
      (do Parser.expect .rightParen .afterArguments; return arguments) rest :=
    .closed (by simp) _ _ fits
  refine .check proper fun found => ?_
  cases found with
  | true =>
    exact (Settled.pure [] stream).bind proper fun arguments _ fits _ => behind arguments fits
  | false =>
    have list : (argumentList expression maxArguments).Settled 0 stream :=
      .loop loops_end.arguments.finishes proper fun read rest fits shorter =>
        argumentRound_settled (inner rest fits (by omega)) fits read
    exact list.bind proper fun arguments _ fits _ => behind arguments fits

private theorem suffixRound_settled (inner : expression.SettledBelow bound)
    (proper : stream.WellFormed) (inside : stream.ahead.length ≤ bound) (first : Expr) :
    (suffixRound expression first).Settled 0 stream := by
  refine .peek proper ?_
  split
  · rename_i opens
    refine .advancing proper (by simp [opens]) (Nat.zero_le 1) fun rest fits shorter => ?_
    exact (callArguments_settled inner fits (by omega)).bind fits fun _ rest _ _ => .pure _ rest
  · rename_i dot
    refine .advancing proper (by simp [dot]) (Nat.zero_le 1) fun rest fits _ => ?_
    exact ((Settled.name _ fits).any).bind fits fun _ rest _ _ => .pure _ rest
  · exact .pure _ stream

private theorem suffixed_settled (inner : expression.SettledBelow bound)
    (proper : stream.WellFormed)
    (inside : stream.ahead.length ≤ bound) : (suffixed expression).Settled stream.lead stream := by
  refine (primary_settled inner proper inside).bind proper fun first rest fits shorter => ?_
  refine .loop (loops_end.suffixes first).finishes fits fun state rest fits within => ?_
  exact suffixRound_settled inner fits (by omega) state

/-- Where operands begin with other operators, the induction is on the tokens ahead. -/
theorem unary_settled (inner : expression.SettledBelow bound) (proper : stream.WellFormed)
    (inside : stream.ahead.length ≤ bound) :
    (unary expression).Settled stream.lead stream := by
  induction length : stream.ahead.length using Nat.strongRecOn generalizing stream with
  | ind count ih =>
    refine Settled.congr ?_ proper fun other fits _ => nesting_unbounded.operand other fits.ended
    refine .peek proper ?_
    cases found : unaryOperator? stream.current.kind with
    | none => exact suffixed_settled inner proper inside
    | some operator =>
      have marked : stream.current.kind ≠ .endOfFile := by
        intro ends
        rw [ends] at found
        cases found
      refine .advancing proper marked stream.lead_le_one fun rest fits shorter => ?_
      have operand := ih rest.ahead.length (by omega) fits (by omega) rfl
      exact (operand.any).bind fits fun _ rest _ _ => .pure _ rest

private theorem operationRound_settled {operators : List (Kind × BinaryOperator)}
    {operand : Parser Expr} (noEnd : operators.lookup .endOfFile = none)
    (proper : stream.WellFormed)
    (operands : ∀ rest : Stream, rest.WellFormed → rest.ahead.length < stream.ahead.length →
      operand.Settled 0 rest) (left : Expr) :
    (operationRound operators operand left).Settled 0 stream := by
  cases found : operators.lookup stream.current.kind with
  | none =>
    refine (Settled.pure (ForInStep.done left) stream).congr proper fun other _ shares => ?_
    exact operationRound_done operand left (shares.current ▸ found)
  | some operator =>
    have marked : stream.current.kind ≠ .endOfFile := by
      intro ends
      rw [ends, noEnd] at found
      cases found
    have reading : Settled 0 (advance >>= fun _ => operand >>= fun right =>
        pure (ForInStep.yield (Expr.binary left operator right left.line))) stream := by
      refine .advancing proper marked (Nat.zero_le 1) fun rest fits shorter => ?_
      exact (operands rest fits shorter).bind fits fun _ rest _ _ => .pure _ rest
    refine reading.congr proper fun other _ shares => ?_
    rw [operationRound, bind_apply, operator?_apply, shares.current, found]
    rfl

private theorem levels_settled (inner : expression.SettledBelow bound) (proper : stream.WellFormed)
    (inside : stream.ahead.length ≤ bound) {looser tighter : List (List (Kind × BinaryOperator))}
    (levels : binaryLevels = looser ++ tighter) :
    (tighter.foldr binaryLevel (unary expression)).Settled stream.lead stream := by
  induction tighter generalizing looser stream with
  | nil => exact unary_settled inner proper inside
  | cons operators tighter ih =>
    have noEnd := binaryLevels_noEnd operators (by simp [levels])
    have operands (rest : Stream) (fits : rest.WellFormed) (within : rest.ahead.length ≤ bound) :=
      ih fits within (levels.trans (List.append_cons ..))
    refine (operands stream proper inside).bind proper fun first rest fits shorter => ?_
    refine .loop (loops_end.operations levels first).finishes fits fun state rest fits within => ?_
    refine operationRound_settled noEnd fits (fun rest fits less => ?_) state
    exact (operands rest fits (by omega)).any

private theorem assignment_settled (inner : expression.SettledBelow bound)
    (proper : stream.WellFormed) (inside : stream.ahead.length ≤ bound) :
    (assignment expression).Settled stream.lead stream := by
  have all : binaryLevels = [] ++ binaryLevels := rfl
  refine (levels_settled inner proper inside all).bind proper ?_
  intro target rest fits shorter
  refine .take? fits (by simp) (.pure _ rest) (fun rest fits less => ?_) (Nat.zero_le 1)
  refine (inner rest fits (by omega)).bind fits fun value rest _ _ => ?_
  cases target
  case identifier => exact .pure _ rest
  all_goals exact .throw (.inl rfl) rest

private theorem expression_settled (proper : stream.WellFormed) :
    expression.Settled stream.lead stream := by
  induction length : stream.ahead.length using Nat.strongRecOn generalizing stream with
  | ind count ih =>
    refine Settled.congr ?_ proper fun other fits _ => expression_eq fits.ended
    refine assignment_settled (fun rest fits less => ?_) proper (Nat.le_of_eq length)
    exact (ih rest.ahead.length less fits rfl).any

private theorem nested_settled (proper : stream.WellFormed) : expression.Settled 0 stream :=
  (expression_settled proper).any

end Expressions

section Declarations

variable {stream : Stream}

private theorem nameAny_settled (use : NameUse) (proper : stream.WellFormed) :
    (name use).Settled 0 stream :=
  (Settled.name use proper).any

private theorem starRound_settled (count : Nat) (proper : stream.WellFormed) :
    (starRound count).Settled 0 stream :=
  .take? proper (by simp) (.pure _ stream) (fun rest _ _ => .pure _ rest) (Nat.zero_le 1)

private theorem declaredType_settled (proper : stream.WellFormed) :
    declaredType.Settled 0 stream := by
  refine (nameAny_settled _ proper).bind proper fun name rest fits _ => ?_
  have counted : (do stars (← remaining) : Parser Nat).Settled 0 rest :=
    .loop loops_end.stars.finishes fits fun count rest fits _ => starRound_settled count fits
  exact counted.bind fits fun count rest _ _ => .pure _ rest

private theorem parameterRound_settled (read : List Parameter) (proper : stream.WellFormed) :
    (parameterRound read).Settled 0 stream := by
  unfold parameterRound
  split
  · exact .fail _ stream
  · refine (nameAny_settled _ proper).bind proper fun name rest fits _ => ?_
    refine (Settled.expect (by simp) _ fits).bind fits fun _ rest fits _ => ?_
    refine (declaredType_settled fits).bind fits fun type rest fits _ => ?_
    exact .take? fits (by simp) (.pure _ rest) (fun rest _ _ => .pure _ rest) (Nat.zero_le 1)

private theorem parameters_settled (proper : stream.WellFormed) : parameters.Settled 0 stream := by
  have behind (list : List Parameter) {rest : Stream} (fits : rest.WellFormed) : Settled 0
      (do Parser.expect .rightParen .afterParameters; return list) rest :=
    .closed (by simp) _ _ fits
  refine .check proper fun found => ?_
  cases found with
  | true => exact (Settled.pure [] stream).bind proper fun list _ fits _ => behind list fits
  | false =>
    have list : (parameterList maxArguments).Settled 0 stream :=
      .loop loops_end.parameters.finishes proper fun read rest fits _ =>
        parameterRound_settled read fits
    exact list.bind proper fun list _ fits _ => behind list fits

private theorem variableDeclaration_settled (valueNeeded : Bool) (proper : stream.WellFormed) :
    (variableDeclaration valueNeeded).Settled stream.lead stream := by
  refine .peek proper ((Settled.name _ proper).bind proper fun name rest fits _ => ?_)
  refine (Settled.expect (by simp) _ fits).bind fits fun _ rest fits _ => ?_
  refine (declaredType_settled fits).bind fits fun type rest fits _ => ?_
  have behind (initializer : Option Expr) {rest : Stream} (fits : rest.WellFormed) : Settled 0
      (do
        Parser.expect .semicolon .afterVariableDeclaration
        return Stmt.declare name type initializer stream.current.line) rest :=
    .closed (by simp) _ _ fits
  refine .take? fits (by simp) ?_ (fun rest fits _ => ?_) (Nat.zero_le 1)
  · cases valueNeeded with
    | true => exact (Settled.fail _ rest).bind fits fun value _ fits _ => behind value fits
    | false => exact (Settled.pure _ rest).bind fits fun value _ fits _ => behind value fits
  · refine (nested_settled fits).bind fits fun value rest fits _ => ?_
    exact (Settled.pure _ rest).bind fits fun value _ fits _ => behind value fits

private theorem expressionStatement_settled (proper : stream.WellFormed) :
    expressionStatement.Settled stream.lead stream := by
  refine (expression_settled proper).bind proper fun _ rest fits _ => ?_
  exact .closed (by simp) _ _ fits

private theorem expressionUnless_settled (kind : Kind) (proper : stream.WellFormed) :
    (expressionUnless kind).Settled 0 stream := by
  refine .check proper fun found => ?_
  cases found with
  | true => exact .pure none stream
  | false => exact (nested_settled proper).bind proper fun _ rest _ _ => .pure _ rest

private theorem returnStatement_settled (line : Nat) (proper : stream.WellFormed) :
    (returnStatement line).Settled 0 stream := by
  refine (expressionUnless_settled _ proper).bind proper fun _ rest fits _ => ?_
  exact .closed (by simp) _ _ fits

private theorem condition_settled (keyword : Kind) (place : Place) (proper : stream.WellFormed) :
    (condition keyword place).Settled 0 stream := by
  refine (Settled.expect (by simp) _ proper).bind proper fun _ rest fits _ => ?_
  refine (nested_settled fits).bind fits fun _ rest fits _ => ?_
  exact .closed (by simp) _ _ fits

/-- Outside of a loop, the keyword itself is the error. -/
theorem loopControl_settled {result : Stmt} (inLoop : Bool) (proper : stream.WellFormed)
    (marked : stream.current.kind ≠ .endOfFile) :
    (do advance; loopControl stream.current inLoop; return result : Parser Stmt).Settled 0
      stream := by
  cases inLoop with
  | true =>
    refine .advancing proper marked (Nat.zero_le 1) fun rest fits _ => ?_
    exact .closed (by simp) _ _ fits
  | false =>
    exact .fails ⟨.outsideLoop stream.current.kind, stream.current⟩ 0 (Nat.le_refl 0)
      (Nat.zero_le _) rfl fun _ _ _ => rfl

private theorem forInitializer_settled (proper : stream.WellFormed) :
    forInitializer.Settled 0 stream := by
  refine .take? proper (by simp) ?_ (fun rest _ _ => .pure none rest) (Nat.zero_le 1)
  refine Settled.weaken (.atDeclaration proper fun found => ?_) (Nat.zero_le _)
  cases found with
  | true => exact (variableDeclaration_settled _ proper).bind proper fun _ rest _ _ => .pure _ rest
  | false => exact (expressionStatement_settled proper).bind proper fun _ rest _ _ => .pure _ rest

private theorem forCondition_settled (proper : stream.WellFormed) :
    forCondition.Settled 0 stream := by
  refine .peek proper ((expressionUnless_settled _ proper).bind proper fun _ rest fits _ => ?_)
  exact .closed (by simp) _ _ fits

end Declarations

section Statements

variable {stream : Stream} {bound : Nat} {body : Parser Stmt} {inLoop : Bool}

private theorem blockRound_settled {item : Parser Stmt} (inner : item.Settled 0 stream)
    (proper : stream.WellFormed) (read : List Stmt) : (blockRound item read).Settled 0 stream := by
  refine .peek proper ?_
  dsimp only
  split
  · exact .pure _ stream
  · exact inner.bind proper fun _ rest _ _ => .pure _ rest

private theorem blockBody_settled (inner : (declarationIn inLoop).SettledBelow bound)
    (proper : stream.WellFormed) (inside : stream.ahead.length < bound) :
    (blockBody (declarationIn inLoop)).Settled 0 stream := by
  have items : (do blockItems (declarationIn inLoop) (← remaining) : Parser _).Settled 0 stream :=
    .loop (loops_end.block inLoop).finishes proper fun read rest fits shorter =>
      blockRound_settled (inner rest fits (by omega)) fits read
  have parts : blockBody (declarationIn inLoop) =
      (do blockItems (declarationIn inLoop) (← remaining)) >>= fun items => do
        Parser.expect .rightBrace .afterBlock
        return items := by
    rw [blockBody, bind_assoc]
  rw [parts]
  refine items.bind proper fun _ rest fits _ => ?_
  exact .closed (by simp) _ _ fits

private theorem ifStatement_settled (inner : body.SettledBelow bound) (line : Nat)
    (proper : stream.WellFormed) (inside : stream.ahead.length < bound) :
    (ifStatement line body).Settled 0 stream := by
  refine (condition_settled _ _ proper).bind proper fun test rest fits _ => ?_
  refine (inner rest fits (by omega)).bind fits fun whenTrue rest fits _ => ?_
  refine .take? fits (by simp) ?_ (fun rest fits _ => ?_) (Nat.zero_le 1)
  · exact (Settled.pure _ rest).bind fits fun _ rest _ _ => .pure _ rest
  · refine (inner rest fits (by omega)).bind fits fun _ rest fits _ => ?_
    exact (Settled.pure _ rest).bind fits fun _ rest _ _ => .pure _ rest

private theorem whileStatement_settled (inner : body.SettledBelow bound) (line : Nat)
    (proper : stream.WellFormed) (inside : stream.ahead.length < bound) :
    (whileStatement line body).Settled 0 stream := by
  refine (condition_settled _ _ proper).bind proper fun test rest fits _ => ?_
  exact (inner rest fits (by omega)).bind fits fun _ rest _ _ => .pure _ rest

private theorem forStatement_settled (inner : body.SettledBelow bound) (line : Nat)
    (proper : stream.WellFormed) (inside : stream.ahead.length < bound) :
    (forStatement line body).Settled 0 stream := by
  refine (Settled.expect (by simp) _ proper).bind proper fun _ rest fits _ => ?_
  refine (forInitializer_settled fits).bind fits fun _ rest fits _ => ?_
  refine (forCondition_settled fits).bind fits fun _ rest fits _ => ?_
  refine (expressionUnless_settled _ fits).bind fits fun _ rest fits _ => ?_
  refine (Settled.expect (by simp) _ fits).bind fits fun _ rest fits _ => ?_
  exact (inner rest fits (by omega)).bind fits fun _ rest _ _ => .pure _ rest

private theorem functionDeclaration_settled (inner : (declarationIn inLoop).SettledBelow bound)
    (line : Nat) (proper : stream.WellFormed) (inside : stream.ahead.length < bound) :
    (functionDeclaration line (declarationIn inLoop)).Settled 0 stream := by
  refine (nameAny_settled _ proper).bind proper fun name rest fits _ => ?_
  refine (Settled.expect (by simp) _ fits).bind fits fun _ rest fits _ => ?_
  refine (parameters_settled fits).bind fits fun _ rest fits _ => ?_
  refine .take? fits (by simp) (.fail _ rest) (fun rest fits _ => ?_) (Nat.zero_le 1)
  refine (declaredType_settled fits).bind fits fun _ rest fits _ => .peek fits ?_
  refine (Settled.expect (by simp) _ fits).bind fits fun _ rest fits _ => ?_
  exact (blockBody_settled inner fits (by omega)).bind fits fun _ rest _ _ => .pure _ rest

private theorem statementOver_settled
    (declarations : ∀ inLoop, (declarationIn inLoop).SettledBelow stream.ahead.length)
    (statements : ∀ inLoop, (statementIn inLoop).SettledBelow stream.ahead.length)
    (proper : stream.WellFormed) (inLoop : Bool) :
    (statementOver declarationIn statementIn inLoop).Settled stream.lead stream := by
  by_cases isName : stream.current.kind = .identifier
  · refine (expressionStatement_settled proper).congr proper fun other _ shares => ?_
    rw [statementOver, bind_apply, peek_apply, shares.current]
    simp only [isName]
  · rw [Stream.lead_other isName]
    refine .peek proper ?_
    split
    · rename_i keyword
      exact .advancing proper (by simp [keyword]) (Nat.zero_le 1) fun rest fits shorter =>
        forStatement_settled (statements true) _ fits shorter
    · rename_i keyword
      exact .advancing proper (by simp [keyword]) (Nat.zero_le 1) fun rest fits shorter =>
        ifStatement_settled (statements inLoop) _ fits shorter
    · rename_i keyword
      exact .advancing proper (by simp [keyword]) (Nat.zero_le 1) fun rest fits _ =>
        returnStatement_settled _ fits
    · rename_i keyword
      exact .advancing proper (by simp [keyword]) (Nat.zero_le 1) fun rest fits shorter =>
        whileStatement_settled (statements true) _ fits shorter
    · rename_i keyword
      refine .advancing proper (by simp [keyword]) (Nat.zero_le 1) fun rest fits shorter => ?_
      exact (blockBody_settled (declarations inLoop) fits shorter).bind fits fun _ rest _ _ =>
        .pure _ rest
    · rename_i keyword
      exact loopControl_settled inLoop proper (by simp [keyword])
    · rename_i keyword
      exact loopControl_settled inLoop proper (by simp [keyword])
    · exact (expressionStatement_settled proper).any

private theorem declarationOver_settled
    (declarations : ∀ inLoop, (declarationIn inLoop).SettledBelow stream.ahead.length)
    (statements : ∀ inLoop, (statementIn inLoop).SettledBelow stream.ahead.length)
    (proper : stream.WellFormed) (inLoop : Bool) :
    (declarationOver declarationIn statementIn inLoop).Settled 0 stream := by
  refine .peek proper ?_
  split
  · rename_i function
    refine .advancing proper (by simp [function]) (Nat.zero_le 1) fun rest fits shorter => ?_
    exact functionDeclaration_settled (declarations false) _ fits shorter
  · exact .fail _ stream
  · refine Settled.weaken (.atDeclaration proper fun found => ?_) (Nat.zero_le _)
    cases found with
    | true => exact variableDeclaration_settled _ proper
    | false => exact statementOver_settled declarations statements proper inLoop

/-- Nested declarations and statements begin further on. -/
theorem in_settled (proper : stream.WellFormed) (inLoop : Bool) :
    (declarationIn inLoop).Settled 0 stream ∧ (statementIn inLoop).Settled 0 stream := by
  induction length : stream.ahead.length using Nat.strongRecOn generalizing stream inLoop with
  | ind count ih =>
    have declarations (inLoop : Bool) : (declarationIn inLoop).SettledBelow stream.ahead.length :=
      fun rest fits shorter => (ih rest.ahead.length (length ▸ shorter) fits inLoop rfl).1
    have statements (inLoop : Bool) : (statementIn inLoop).SettledBelow stream.ahead.length :=
      fun rest fits shorter => (ih rest.ahead.length (length ▸ shorter) fits inLoop rfl).2
    constructor
    · exact (declarationOver_settled declarations statements proper inLoop).congr proper
        fun other fits _ => declarationIn_eq fits.ended inLoop
    · exact (statementOver_settled declarations statements proper inLoop).any.congr proper
        fun other fits _ => statementIn_eq fits.ended inLoop

end Statements

section Sources

variable {stream : Stream}

private theorem includeTarget_settled (proper : stream.WellFormed) :
    includeTarget.Settled 0 stream := by
  refine .peek proper ?_
  split
  · rename_i string _
    refine .advancing proper (by simp [string]) (Nat.zero_le 1) fun rest fits _ => ?_
    exact .closed (by simp) _ _ fits
  · exact .fail _ stream

private theorem item_settled (proper : stream.WellFormed) : item.Settled 0 stream := by
  refine .take? proper (by simp) ?_ (fun rest fits _ => ?_) (Nat.zero_le 1)
  · exact (in_settled proper false).1.bind proper fun _ rest _ _ => .pure _ rest
  · exact (includeTarget_settled fits).bind fits fun _ rest _ _ => .pure _ rest

private theorem itemRound_settled (read : List Stmt) (proper : stream.WellFormed) :
    (itemRound read).Settled 0 stream := by
  by_cases empty : stream.ahead = []
  · refine (Settled.pure (ForInStep.done read) stream).congr proper fun other _ shares => ?_
    exact itemRound_done read (shares.ahead_eq_nil.mpr empty)
  · have reading : (item >>= afterItem read).Settled 0 stream := by
      refine (item_settled proper).bind proper fun element rest _ _ => ?_
      cases element with
      | inclusion keyword target => exact .throw (.inr rfl) rest
      | declaration statement => exact .pure _ rest
    refine reading.congr proper fun other _ shares => ?_
    exact itemRound_apply read fun none => empty (shares.ahead_eq_nil.mp none)

private theorem allDeclarations_settled (proper : stream.WellFormed) :
    allDeclarations.Settled 0 stream :=
  .loop loops_end.items.finishes proper fun read _ fits _ => itemRound_settled read fits

end Sources

/-- Well-formed tokens, of which the last one ends a source. -/
structure Complete (tokens : List Token) : Prop where
  each : ∀ token ∈ tokens, token.WellFormed
  ends : ∃ last, tokens.getLast? = some last ∧ last.kind = .endOfFile

/-- The tokens up to an index, that one included, are enough for an error: all complete lists that
agree on them are read with this error. -/
def Determines (tokens : List Token) (index : Nat) (error : Error) : Prop :=
  ∀ others, Complete others → others.take (index + 1) = tokens.take (index + 1) →
    parse others = .error error

section Lists

variable {tokens others : List Token} {error : Error}

theorem Complete.exists_end (complete : Complete tokens) :
    ∃ token ∈ tokens, token.kind = .endOfFile := by
  obtain ⟨last, isLast, ends⟩ := complete.ends
  exact ⟨last, List.mem_of_getLast? isLast, ends⟩

theorem Complete.wellFormed (complete : Complete tokens) :
    (Stream.ofTokens tokens).WellFormed := by
  obtain ⟨last, isLast, ends⟩ := complete.ends
  obtain ⟨front, first, behind, rfl, isEnd, inside⟩ := exists_first_end isLast ends
  rw [ofTokens_append isEnd inside]
  refine ⟨fun token member => ⟨complete.each token ?_, inside token member⟩, ?_, isEnd⟩
  · exact List.mem_append_left _ member
  · exact complete.each first (by simp)

theorem Complete.getElem? (complete : Complete tokens) {index : Nat}
    (inside : index ≤ (Stream.ofTokens tokens).ahead.length) :
    tokens[index]? = some ((Stream.ofTokens tokens).drop index).current := by
  obtain ⟨last, isLast, ends⟩ := complete.ends
  obtain ⟨front, first, behind, rfl, isEnd, before⟩ := exists_first_end isLast ends
  rw [ofTokens_append isEnd before] at inside
  exact (places_within isEnd before).current index inside

theorem Determines.congr {index : Nat} (determines : Determines others index error)
    (agree : others.take (index + 1) = tokens.take (index + 1)) : Determines tokens index error :=
  fun list complete same => determines list complete (same.trans agree.symm)

/-- Unless the fault is a late one, some token is the one at which the error shows and the last one
that matters for it. -/
theorem exists_determines (complete : Complete tokens) (failed : parse tokens = .error error)
    (early : ¬ error.fault.IsLate) :
    ∃ index, tokens[index]? = some error.token ∧ Determines tokens index error := by
  have proper := complete.wellFormed
  rw [parse_eq_allDeclarations] at failed
  have stopped := Except.error_of_map failed
  cases allDeclarations_settled proper with
  | reads value count _ _ same =>
    have success := same _ proper (.refl _ _)
    rw [stopped] at success
    cases success
  | late other same isLate =>
    rw [stopped] at same
    cases same
    exact absurd isLate early
  | fails other index _ inside here same =>
    have equal := same _ proper (.refl _ _)
    rw [stopped] at equal
    cases equal
    refine ⟨index, here ▸ complete.getElem? inside, fun others also agree => ?_⟩
    have shares := Stream.shares_ofTokens complete.exists_end also.exists_end agree
    rw [parse_eq_allDeclarations, same _ also.wellFormed shares]
    rfl

/-- A list that is cut off behind an index and ended there. -/
def cutOff (tokens : List Token) (index : Nat) (last : Token) : List Token :=
  tokens.take (index + 1) ++ [last]

theorem Complete.cutOff (complete : Complete tokens) {last : Token} (fits : last.WellFormed)
    (ends : last.kind = .endOfFile) (index : Nat) : Complete (cutOff tokens index last) := by
  refine ⟨fun token member => ?_, last, by simp [Grammar.cutOff], ends⟩
  rcases List.mem_append.mp member with inside | isLast
  · exact complete.each token (List.mem_of_mem_take inside)
  · rw [List.mem_singleton.mp isLast]
    exact fits

private theorem take_cutOff {index count : Nat} {last : Token} (inside : index < tokens.length)
    (few : count ≤ index + 1) : (cutOff tokens index last).take count = tokens.take count := by
  have long : count ≤ (tokens.take (index + 1)).length := by
    rw [List.length_take]
    omega
  rw [cutOff, List.take_append_of_le_length long, List.take_take, Nat.min_eq_left few]

/-- If the tokens up to an index determine an error, one of them is the token at which it shows:
were they followed by an end of the source that is none of the tokens, the error could not show
there. -/
theorem Determines.exists_le {bound : Nat} (complete : Complete tokens)
    (determines : Determines tokens bound error) (inside : bound < tokens.length)
    (early : ¬ error.fault.IsLate) :
    ∃ index ≤ bound, tokens[index]? = some error.token ∧ Determines tokens index error := by
  let last : Token := ⟨.endOfFile, none, error.token.line + 1, error.token.span⟩
  have fits : last.WellFormed := (rfl : Kind.carriesLiteral .endOfFile = false)
  have cut : Complete (cutOff tokens bound last) := complete.cutOff fits rfl bound
  have agree {count : Nat} (few : count ≤ bound + 1) :
      (cutOff tokens bound last).take count = tokens.take count := take_cutOff inside few
  have failed := determines _ cut (agree (Nat.le_refl _))
  obtain ⟨index, shows, enough⟩ := exists_determines cut failed early
  have before : index ≤ bound := by
    by_contra beyond
    have length : (tokens.take (bound + 1)).length = bound + 1 := by
      rw [List.length_take]
      omega
    rw [cutOff, List.getElem?_append_right (by omega)] at shows
    have isLast : error.token = last := List.mem_singleton.mp (List.mem_of_getElem? shows)
    have line : error.token.line = error.token.line + 1 := congrArg Token.line isLast
    omega
  refine ⟨index, before, ?_, enough.congr (agree (by omega))⟩
  have less : index < bound + 1 := by omega
  rw [← List.getElem?_take_of_lt less, ← agree (Nat.le_refl _), List.getElem?_take_of_lt less]
  exact shows

/-- The first error of a complete list, unless it is one of the two that are told late, shows at a
token such that the tokens up to it are enough for this error, and no fewer of them are: all
complete lists that agree on them are read with the same error. -/
theorem parse_error_determined (complete : Complete tokens) (failed : parse tokens = .error error)
    (validTarget : error.fault ≠ .invalidTarget) (noInclude : error.fault ≠ .includeUnavailable) :
    ∃ index, tokens[index]? = some error.token ∧
      ∀ bound, Determines tokens bound error ↔ index ≤ bound := by
  classical
  have early : ¬ error.fault.IsLate := by
    rintro (late | late)
    · exact validTarget late
    · exact noInclude late
  have some := exists_determines complete failed early
  obtain ⟨shows, enough⟩ := Nat.find_spec some
  refine ⟨Nat.find some, shows, fun bound => ?_⟩
  constructor
  · intro determines
    by_contra less
    have inside : Nat.find some < tokens.length := (List.getElem?_eq_some_iff.mp shows).1
    obtain ⟨index, before, earlier⟩ := determines.exists_le complete (by omega) early
    exact less (Nat.le_trans (Nat.find_min' some earlier) before)
  · intro least others also agree
    apply enough others also
    have fewer := congrArg (List.take (Nat.find some + 1)) agree
    rw [List.take_take, List.take_take, Nat.min_eq_left (by omega)] at fewer
    exact fewer

end Lists

/-- A name that stands behind another one. -/
def secondName : Token := ⟨.identifier, some (.identifier "b"), 1, ⟨2, 1⟩⟩

/-- A declaration behind a name: `a b: c;`. -/
def secondNameTokens : List Token :=
  [⟨.identifier, some (.identifier "a"), 1, ⟨0, 1⟩⟩, secondName, ⟨.colon, none, 1, ⟨3, 1⟩⟩,
    ⟨.identifier, some (.identifier "c"), 1, ⟨5, 1⟩⟩, ⟨.semicolon, none, 1, ⟨6, 1⟩⟩,
    ⟨.endOfFile, none, 1, ⟨7, 0⟩⟩]

theorem secondName_determined : secondNameTokens[1]? = some secondName ∧ ∀ bound,
    (Determines secondNameTokens bound ⟨.expectedToken .semicolon .afterExpression, secondName⟩ ↔
      1 ≤ bound) := by
  have complete : Complete secondNameTokens := ⟨by decide, _, rfl, rfl⟩
  have failed : parse secondNameTokens =
      .error ⟨.expectedToken .semicolon .afterExpression, secondName⟩ := rfl
  obtain ⟨index, shows, determines⟩ :=
    parse_error_determined complete failed (by simp) (by simp)
  have place : index = 1 := by
    obtain ⟨inside, here⟩ := List.getElem?_eq_some_iff.mp shows
    have six : index < 6 := inside
    interval_cases index <;> simp_all [secondNameTokens, secondName]
  subst place
  exact ⟨rfl, determines⟩

end Scriptlet.Grammar
