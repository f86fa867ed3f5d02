import Scriptlet.Grammar.Outline
import Scriptlet.Proofs.Grammar.Reading

/-! Where errors show. A parser gives up at the token to be read next or at one that it has read
before and kept in mind, so an error in a source points at one of its tokens. This is a property
of parsers that sequencing keeps, and one that each parser of the grammar has because its parts
have it. -/
namespace Scriptlet.Grammar

variable {known : Token → Prop} {α β : Type}

/-- All tokens of a stream are known, also the one that ends the source. -/
structure Stream.Known (known : Token → Prop) (stream : Stream) : Prop where
  ahead : ∀ token ∈ stream.ahead, known token
  last : known stream.last

theorem Stream.Known.current {stream : Stream} (all : stream.Known known) :
    known stream.current := by
  obtain ⟨ahead, last⟩ := stream
  cases ahead with
  | nil => exact all.last
  | cons token others => exact all.ahead token (List.mem_cons_self ..)

theorem Stream.Known.advance {stream : Stream} (all : stream.Known known) :
    stream.advance.Known known :=
  ⟨fun token member => all.ahead token (List.mem_of_mem_tail member), all.last⟩

/-- On a stream of known tokens, a parser leaves such a stream or gives an error at a known
token. -/
def Parser.Points (known : Token → Prop) (parser : Parser α) : Prop :=
  ∀ stream, stream.Known known →
    match parser stream with
    | .ok (_, rest) => rest.Known known
    | .error error => known error.token

namespace Parser.Points

variable {next : α → Parser β}

theorem bind {action : Parser α} (first : action.Points known)
    (second : ∀ value, (next value).Points known) : (action >>= next).Points known := by
  intro stream all
  have start := first stream all
  rw [bind_apply]
  split at start
  · rename_i value rest read
    rw [read]
    exact second value rest start
  · rename_i error failed
    rw [failed]
    exact start

/-- Both ways of going on behind a test. -/
theorem test {action : Parser Bool} {next : Bool → Parser β} (first : action.Points known)
    (yes : (next true).Points known) (no : (next false).Points known) :
    (action >>= next).Points known := by
  refine first.bind fun value => ?_
  cases value with
  | true => exact yes
  | false => exact no

theorem pure (value : α) : (Pure.pure value : Parser α).Points known := fun _ all => all

theorem fail (fault : Fault) : (Parser.fail fault : Parser α).Points known :=
  fun _ all => all.current

/-- An error at a token that was kept in mind. -/
theorem throw {fault : Fault} {token : Token} (kept : known token) :
    (throwThe Error ⟨fault, token⟩ : Parser α).Points known := fun _ _ => kept

theorem advance : Parser.advance.Points known := fun _ all => all.advance

theorem remaining : Parser.remaining.Points known := fun _ all => all

theorem check (kind : Kind) : (Parser.check kind).Points known := fun _ all => all

theorem atDeclaration : Parser.atDeclaration.Points known := by
  intro stream all
  rw [atDeclaration_apply]
  exact all

/-- What stands behind a look at the next token may keep that token in mind. -/
theorem peek {next : Token → Parser β} (second : ∀ token, known token → (next token).Points known) :
    (Parser.peek >>= next).Points known :=
  fun stream all => second stream.current all.current stream all

theorem take? {next : Option Token → Parser β} {kind : Kind} (absent : (next none).Points known)
    (present : ∀ token, known token → (next (some token)).Points known) :
    (Parser.take? kind >>= next).Points known := by
  intro stream all
  rw [bind_apply, take?_apply]
  by_cases found : stream.current.kind = kind
  · rw [if_pos found]
    exact present stream.current all.current stream.advance all.advance
  · rw [if_neg found]
    exact absent stream all

theorem expect (kind : Kind) (place : Place) : (Parser.expect kind place).Points known := by
  apply Points.take?
  · exact fail _
  · exact fun _ _ => pure ()

theorem name (use : NameUse) : (Parser.name use).Points known := by
  apply Points.peek
  intro token _
  split
  · exact bind advance fun _ => pure _
  · exact fail _

end Parser.Points

open Scriptlet.Grammar.Parser (Points)

section Expressions

variable {nested operand : Parser Expr}

private theorem primary_points (inner : nested.Points known) : (primary nested).Points known := by
  apply Points.peek
  intro token _
  split
  · exact .bind .advance fun _ => .pure _
  · exact .bind .advance fun _ => .pure _
  · exact .bind .advance fun _ => .bind inner fun _ => .bind (.expect _ _) fun _ => .pure _
  · exact .fail _

private theorem argumentList_points (inner : nested.Points known) (allowed : Nat) :
    (argumentList nested allowed).Points known := by
  induction allowed with
  | zero => exact .fail _
  | succ allowed ih =>
    refine .bind inner fun first => .take? ?_ fun _ _ => ?_
    · exact .pure _
    · exact .bind ih fun _ => .pure _

private theorem callArguments_points (inner : nested.Points known) :
    (callArguments nested).Points known := by
  have behind (arguments : List Expr) : Points known
      (do Parser.expect .rightParen .afterArguments; return arguments) :=
    .bind (.expect _ _) fun _ => .pure _
  apply Points.test (.check _)
  · exact .bind (.pure _) behind
  · exact .bind (argumentList_points inner _) behind

private theorem suffixes_points (inner : nested.Points known) (count : Nat) (expression : Expr) :
    (suffixes nested count expression).Points known := by
  induction count generalizing expression with
  | zero => exact .pure _
  | succ count ih =>
    apply Points.peek
    intro token _
    split
    · exact .bind .advance fun _ => .bind (callArguments_points inner) fun _ => ih _
    · exact .bind .advance fun _ => .bind (.name _) fun _ => ih _
    · exact .pure _

private theorem suffixed_points (inner : nested.Points known) : (suffixed nested).Points known :=
  .bind (primary_points inner) fun _ => .bind .remaining fun _ => suffixes_points inner _ _

private theorem unaryUpTo_points (inner : nested.Points known) (count : Nat) :
    (unaryUpTo nested count).Points known := by
  induction count with
  | zero => exact suffixed_points inner
  | succ count ih =>
    apply Points.peek
    intro token _
    split
    · exact .bind .advance fun _ => .bind ih fun _ => .pure _
    · exact suffixed_points inner

private theorem unary_points (inner : nested.Points known) : (unary nested).Points known :=
  .bind .remaining fun _ => unaryUpTo_points inner _

private theorem operator?_points (operators : List (Kind × BinaryOperator)) :
    (operator? operators).Points known := by
  apply Points.peek
  intro token _
  split
  · exact .bind .advance fun _ => .pure _
  · exact .pure _

private theorem binaryTail_points (operators : List (Kind × BinaryOperator))
    (inner : operand.Points known) (count : Nat) (left : Expr) :
    (binaryTail operators operand count left).Points known := by
  induction count generalizing left with
  | zero => exact .pure _
  | succ count ih =>
    refine .bind (operator?_points operators) fun found => ?_
    split
    · exact .bind inner fun _ => ih _
    · exact .pure _

private theorem binaryLevel_points (operators : List (Kind × BinaryOperator))
    (inner : operand.Points known) : (binaryLevel operators operand).Points known :=
  .bind inner fun _ => .bind .remaining fun _ => binaryTail_points operators inner _ _

private theorem binary_points (inner : nested.Points known) : (binary nested).Points known := by
  unfold binary
  induction binaryLevels with
  | nil => exact unary_points inner
  | cons operators levels ih => exact binaryLevel_points operators ih

/-- An assignment to something other than a name fails at its mark, which has been read. -/
theorem assignment_points (inner : nested.Points known) : (assignment nested).Points known := by
  refine .bind (binary_points inner) fun target => .take? (.pure _) fun mark kept => ?_
  refine .bind inner fun value => ?_
  split
  · exact .pure _
  · exact .throw kept

private theorem expressionUpTo_points (depth : Nat) : (expressionUpTo depth).Points known := by
  induction depth with
  | zero => exact .fail _
  | succ depth ih => exact assignment_points ih

private theorem expression_points : expression.Points known :=
  .bind .remaining fun _ => expressionUpTo_points _

end Expressions

private theorem stars_points (count : Nat) : (stars count).Points known := by
  induction count with
  | zero => exact .pure _
  | succ count ih =>
    refine .take? (.pure _) fun _ _ => ?_
    exact .bind ih fun _ => .pure _

private theorem declaredType_points : declaredType.Points known :=
  .bind (.name _) fun _ => .bind .remaining fun _ => .bind (stars_points _) fun _ => .pure _

private theorem parameterList_points (allowed : Nat) : (parameterList allowed).Points known := by
  induction allowed with
  | zero => exact .fail _
  | succ allowed ih =>
    refine .bind (.name _) fun _ => .bind (.expect _ _) fun _ => ?_
    refine .bind declaredType_points fun _ => .take? (.pure _) fun _ _ => ?_
    exact .bind ih fun _ => .pure _

private theorem parameters_points : parameters.Points known := by
  have behind (list : List Parameter) : Points known
      (do Parser.expect .rightParen .afterParameters; return list) :=
    .bind (.expect _ _) fun _ => .pure _
  apply Points.test (.check _)
  · exact .bind (.pure _) behind
  · exact .bind (parameterList_points _) behind

private theorem variableDeclaration_points (valueNeeded : Bool) :
    (variableDeclaration valueNeeded).Points known := by
  refine .peek fun token _ => .bind (.name _) fun name => .bind (.expect _ _) fun _ => ?_
  refine .bind declaredType_points fun type => ?_
  have behind (initializer : Option Expr) : Points known
      (do
        Parser.expect .semicolon .afterVariableDeclaration
        return Stmt.declare name type initializer token.line) :=
    .bind (.expect _ _) fun _ => .pure _
  refine .take? ?_ fun _ _ => ?_
  · cases valueNeeded with
    | true => exact .bind (.fail _) behind
    | false => exact .bind (.pure _) behind
  · exact .bind expression_points fun _ => .bind (.pure _) behind

private theorem expressionStatement_points : expressionStatement.Points known :=
  .bind expression_points fun _ => .bind (.expect _ _) fun _ => .pure _

private theorem expressionUnless_points (kind : Kind) : (expressionUnless kind).Points known := by
  apply Points.test (.check _)
  · exact .pure _
  · exact .bind expression_points fun _ => .pure _

/-- Outside of a loop, the error is at the keyword, which has been read. -/
theorem loopControl_points {keyword : Token} (kept : known keyword) (inLoop : Bool) :
    (loopControl keyword inLoop).Points known := by
  cases inLoop with
  | true => exact .expect _ _
  | false => exact .throw kept

private theorem returnStatement_points (line : Nat) : (returnStatement line).Points known :=
  .bind (expressionUnless_points _) fun _ => .bind (.expect _ _) fun _ => .pure _

private theorem condition_points (keyword : Kind) (place : Place) :
    (condition keyword place).Points known :=
  .bind (.expect _ _) fun _ => .bind expression_points fun _ => .bind (.expect _ _) fun _ => .pure _

private theorem forInitializer_points : forInitializer.Points known := by
  refine .take? ?_ fun _ _ => .pure _
  apply Points.test .atDeclaration
  · exact .bind (variableDeclaration_points _) fun _ => .pure _
  · exact .bind expressionStatement_points fun _ => .pure _

private theorem forCondition_points : forCondition.Points known :=
  .peek fun _ _ => .bind (expressionUnless_points _) fun _ => .bind (.expect _ _) fun _ => .pure _

section Statements

variable {item body : Parser Stmt} {declaration statement : Bool → Parser Stmt}

private theorem blockItems_points (inner : item.Points known) (count : Nat) :
    (blockItems item count).Points known := by
  induction count with
  | zero => exact .pure _
  | succ count ih =>
    refine .peek fun token _ => ?_
    dsimp only
    split
    · exact .pure _
    · exact .bind inner fun _ => .bind ih fun _ => .pure _

private theorem blockBody_points (inner : item.Points known) : (blockBody item).Points known :=
  .bind .remaining fun _ => .bind (blockItems_points inner _) fun _ =>
    .bind (.expect _ _) fun _ => .pure _

private theorem ifStatement_points (line : Nat) (inner : body.Points known) :
    (ifStatement line body).Points known := by
  refine .bind (condition_points _ _) fun _ => .bind inner fun _ => .take? ?_ fun _ _ => ?_
  · exact .bind (.pure _) fun _ => .pure _
  · exact .bind inner fun _ => .bind (.pure _) fun _ => .pure _

private theorem whileStatement_points (line : Nat) (inner : body.Points known) :
    (whileStatement line body).Points known :=
  .bind (condition_points _ _) fun _ => .bind inner fun _ => .pure _

private theorem forStatement_points (line : Nat) (inner : body.Points known) :
    (forStatement line body).Points known :=
  .bind (.expect _ _) fun _ => .bind forInitializer_points fun _ =>
    .bind forCondition_points fun _ => .bind (expressionUnless_points _) fun _ =>
      .bind (.expect _ _) fun _ => .bind inner fun _ => .pure _

private theorem functionDeclaration_points (line : Nat) (inner : item.Points known) :
    (functionDeclaration line item).Points known := by
  refine .bind (.name _) fun _ => .bind (.expect _ _) fun _ => .bind parameters_points fun _ => ?_
  refine .take? (.fail _) fun _ _ => .bind declaredType_points fun _ => .peek fun _ _ => ?_
  exact .bind (.expect _ _) fun _ => .bind (blockBody_points inner) fun _ => .pure _

private theorem statementOver_points (declarations : ∀ inLoop, (declaration inLoop).Points known)
    (statements : ∀ inLoop, (statement inLoop).Points known) (inLoop : Bool) :
    (statementOver declaration statement inLoop).Points known := by
  refine .peek fun token kept => ?_
  split
  · exact .bind .advance fun _ => forStatement_points _ (statements true)
  · exact .bind .advance fun _ => ifStatement_points _ (statements inLoop)
  · exact .bind .advance fun _ => returnStatement_points _
  · exact .bind .advance fun _ => whileStatement_points _ (statements true)
  · exact .bind .advance fun _ => .bind (blockBody_points (declarations inLoop)) fun _ => .pure _
  · exact .bind .advance fun _ => .bind (loopControl_points kept inLoop) fun _ => .pure _
  · exact .bind .advance fun _ => .bind (loopControl_points kept inLoop) fun _ => .pure _
  · exact expressionStatement_points

private theorem declarationOver_points (declarations : ∀ inLoop, (declaration inLoop).Points known)
    (statements : ∀ inLoop, (statement inLoop).Points known) (inLoop : Bool) :
    (declarationOver declaration statement inLoop).Points known := by
  refine .peek fun token _ => ?_
  split
  · exact .bind .advance fun _ => functionDeclaration_points _ (declarations false)
  · exact .fail _
  · apply Points.test .atDeclaration
    · exact variableDeclaration_points _
    · exact statementOver_points declarations statements inLoop

end Statements

private theorem upTo_points (depth : Nat) :
    (∀ inLoop, (declarationUpTo depth inLoop).Points known) ∧
    ∀ inLoop, (statementUpTo depth inLoop).Points known := by
  induction depth with
  | zero =>
    rw [declarationUpTo, statementUpTo]
    exact ⟨fun _ => expressionStatement_points, fun _ => expressionStatement_points⟩
  | succ depth ih =>
    rw [declarationUpTo, statementUpTo]
    exact ⟨declarationOver_points ih.1 ih.2, statementOver_points ih.1 ih.2⟩

private theorem declaration_points : declaration.Points known :=
  .bind .remaining fun _ => (upTo_points _).1 false

private theorem includeTarget_points : includeTarget.Points known := by
  refine .peek fun token _ => ?_
  split
  · exact .bind .advance fun _ => .bind (.expect _ _) fun _ => .pure _
  · exact .fail _

private theorem item_points : item.Points known :=
  .take? (.bind declaration_points fun _ => .pure _) fun _ _ =>
    .bind includeTarget_points fun _ => .pure _

/-- The keyword of a directive is one of the tokens. -/
theorem inclusion_points {stream rest : Stream} {keyword : Token} {target : String}
    (all : stream.Known known) (read : item stream = .ok (.inclusion keyword target, rest)) :
    known keyword := by
  rw [item, Parser.bind_apply, Parser.take?_apply] at read
  by_cases found : stream.current.kind = .includeWord
  · simp only [found, ↓reduceIte, Parser.bind_eq_ok, Parser.pure_apply] at read
    obtain ⟨_, _, _, same⟩ := read
    cases same
    exact all.current
  · simp only [found, ↓reduceIte, Parser.bind_eq_ok, Parser.pure_apply] at read
    obtain ⟨_, _, _, same⟩ := read
    cases same

/-- The error at which an outline stops, and the keywords of its directives, are known tokens. -/
theorem outline_points (count : Nat) {stream : Stream} (all : stream.Known known) :
    (∀ error ∈ (Outline.read count stream).error, known error.token) ∧
      ∀ keyword target, .inclusion keyword target ∈ (Outline.read count stream).items →
        known keyword := by
  induction count generalizing stream with
  | zero => simp [Outline.read]
  | succ count ih =>
    have next := item_points stream all
    rw [Outline.read]
    split
    · simp
    · split
      · rename_i error failed
        have failed : item stream = .error error := failed
        rw [failed] at next
        simpa using next
      · rename_i first rest read
        have read : item stream = .ok (first, rest) := read
        rw [read] at next
        obtain ⟨errors, keywords⟩ := ih next
        refine ⟨errors, fun keyword target member => ?_⟩
        rcases List.mem_cons.mp member with rfl | member
        · exact inclusion_points all read
        · exact keywords keyword target member

/-- In an outline in which nothing can be included, the error is the one at which it stops or is
at the keyword of a directive. -/
theorem declarations_eq_error {items : List Item} {stopped : Option Error} {error : Error}
    (failed : Outline.declarations items stopped = .error error) :
    stopped = some error ∨ ∃ target, .inclusion error.token target ∈ items := by
  induction items with
  | nil =>
    cases stopped with
    | none => cases failed
    | some first =>
      cases failed
      exact .inl rfl
  | cons first rest ih =>
    cases first with
    | inclusion keyword target =>
      cases failed
      exact .inr ⟨target, List.mem_cons_self ..⟩
    | declaration statement =>
      rw [Outline.declarations] at failed
      cases behind : Outline.declarations rest stopped with
      | ok trees =>
        rw [behind] at failed
        cases failed
      | error later =>
        rw [behind] at failed
        cases failed
        rcases ih behind with stop | ⟨target, member⟩
        · exact .inl stop
        · exact .inr ⟨target, List.mem_cons_of_mem _ member⟩

section

variable {tokens : List Token} {error : Error}

/-- The tokens of a stream are those of the list from which it was made. -/
theorem known_ofTokens (ends : ∃ token ∈ tokens, token.kind = .endOfFile) :
    (Stream.ofTokens tokens).Known (· ∈ tokens) := by
  constructor
  · exact fun token member => (List.takeWhile_sublist _).subset member
  · obtain ⟨last, member, ends⟩ := ends
    cases found : tokens.find? fun token => token.kind = .endOfFile with
    | none => exact absurd ends (by simpa using List.find?_eq_none.mp found last member)
    | some token =>
      simp only [Stream.ofTokens, found, Option.getD_some]
      exact List.mem_of_find?_eq_some found

theorem outline_error_mem (ends : ∃ token ∈ tokens, token.kind = .endOfFile)
    (stopped : (Outline.ofTokens tokens).error = some error) : error.token ∈ tokens :=
  (outline_points _ (known_ofTokens ends)).1 error stopped

theorem parse_error_mem (ends : ∃ token ∈ tokens, token.kind = .endOfFile)
    (failed : parse tokens = .error error) : error.token ∈ tokens := by
  obtain ⟨errors, keywords⟩ :=
    outline_points (Stream.ofTokens tokens).ahead.length (known_ofTokens ends)
  rw [parse, Outline.toProgram] at failed
  cases found : Outline.declarations (Outline.ofTokens tokens).items
      (Outline.ofTokens tokens).error with
  | ok trees =>
    rw [found] at failed
    cases failed
  | error first =>
    rw [found] at failed
    cases failed
    rcases declarations_eq_error found with stopped | ⟨target, member⟩
    · exact errors error stopped
    · exact keywords error.token target member

end

end Scriptlet.Grammar
