import Scriptlet.Proofs.Except
import Scriptlet.Proofs.Source.Parsed
import Scriptlet.Proofs.Token.Account

/-! Lines of trees. The tokens that a tree is read from are given part by part, down to single
tokens, and every node has the line of the first of its own tokens. The nodes that a `for` loop
adds have the line of its keyword, except for the step, which has the line of the increment, and
for a condition that is left out, which has the line of the semicolon behind it. -/
namespace Scriptlet

mutual

/-- The tokens that an expression is read from, and its lines. -/
inductive Expr.ReadFrom : List Token → Expr → Prop where
  | literal {token : Token} {value : Value} (stands : token.literal = some (.value value)) :
      ReadFrom [token] (.literal value token.line)
  | identifier {token : Token} {name : String}
      (stands : token.literal = some (.identifier name)) :
      ReadFrom [token] (.identifier name token.line)
  | parenthesized {opening closing : Token} {inside : List Token} {inner : Expr}
      (opens : opening.kind = .leftParen) (nested : ReadFrom inside inner)
      (closes : closing.kind = .rightParen) :
      ReadFrom (opening :: (inside ++ [closing])) (.parenthesized inner opening.line)
  | unary {sign : Token} {behind : List Token} {operator : UnaryOperator} {operand : Expr}
      (signed : sign.kind = operator.kind) (nested : ReadFrom behind operand) :
      ReadFrom (sign :: behind) (.unary operator operand sign.line)
  | binary {first sign : Token} {front back : List Token} {operator : BinaryOperator}
      {left right : Expr} (before : ReadFrom front left) (begins : front.head? = some first)
      (signed : sign.kind = operator.kind) (behind : ReadFrom back right) :
      ReadFrom (front ++ sign :: back) (.binary left operator right first.line)
  | member {first dot word : Token} {front : List Token} {object : Expr} {name : String}
      (before : ReadFrom front object) (begins : front.head? = some first)
      (dotted : dot.kind = .dot) (named : word.literal = some (.identifier name)) :
      ReadFrom (front ++ [dot, word]) (.member object name first.line)
  | call {first opening closing : Token} {front inside : List Token} {callee : Expr}
      {arguments : List Expr} (before : ReadFrom front callee) (begins : front.head? = some first)
      (opens : opening.kind = .leftParen) (each : ListedIn inside arguments)
      (closes : closing.kind = .rightParen) :
      ReadFrom (front ++ opening :: (inside ++ [closing])) (.call callee arguments first.line)
  | assign {target sign : Token} {behind : List Token} {name : String} {value : Expr}
      (named : target.literal = some (.identifier name)) (signed : sign.kind = .equal)
      (nested : ReadFrom behind value) :
      ReadFrom (target :: sign :: behind) (.assign name value target.line)

/-- Expressions with commas between them. -/
inductive Expr.ListedIn : List Token → List Expr → Prop where
  | none : ListedIn [] []
  | last {tokens : List Token} {tree : Expr} (read : ReadFrom tokens tree) :
      ListedIn tokens [tree]
  | more {comma : Token} {front back : List Token} {tree next : Expr} {others : List Expr}
      (read : ReadFrom front tree) (divides : comma.kind = .comma)
      (rest : ListedIn back (next :: others)) :
      ListedIn (front ++ comma :: back) (tree :: next :: others)

end

/-- An expression that may be left out. -/
inductive Expr.OptionalIn : List Token → Option Expr → Prop where
  | absent : OptionalIn [] none
  | present {tokens : List Token} {tree : Expr} (read : tree.ReadFrom tokens) :
      OptionalIn tokens (some tree)

/-- The condition of a `for` loop, with the semicolon behind it. -/
inductive Expr.TestedIn : List Token → Expr → Prop where
  | absent {semicolon : Token} (closes : semicolon.kind = .semicolon) :
      TestedIn [semicolon] (.literal (.bool true) semicolon.line)
  | present {semicolon : Token} {tokens : List Token} {tree : Expr} (read : tree.ReadFrom tokens)
      (closes : semicolon.kind = .semicolon) : TestedIn (tokens ++ [semicolon]) tree

namespace Stmt

/-- The declaration of a variable. -/
inductive DeclaredIn : List Token → Stmt → Prop where
  | plain {word colon semicolon : Token} {typing : List Token} {name : String}
      {type : DeclaredType} (named : word.literal = some (.identifier name))
      (typed : colon.kind = .colon) (written : typing.map Token.symbol = type.spelling)
      (closes : semicolon.kind = .semicolon) :
      DeclaredIn (word :: colon :: (typing ++ [semicolon])) (.declare name type none word.line)
  | valued {word colon sign semicolon : Token} {typing tokens : List Token} {name : String}
      {type : DeclaredType} {value : Expr} (named : word.literal = some (.identifier name))
      (typed : colon.kind = .colon) (written : typing.map Token.symbol = type.spelling)
      (signed : sign.kind = .equal) (read : value.ReadFrom tokens)
      (closes : semicolon.kind = .semicolon) :
      DeclaredIn (word :: colon :: (typing ++ sign :: (tokens ++ [semicolon])))
        (.declare name type (some value) word.line)

/-- An expression as a statement. -/
inductive EvaluatedIn : List Token → Stmt → Prop where
  | evaluate {first semicolon : Token} {tokens : List Token} {tree : Expr}
      (read : tree.ReadFrom tokens) (begins : tokens.head? = some first)
      (closes : semicolon.kind = .semicolon) :
      EvaluatedIn (tokens ++ [semicolon]) (.evaluate tree first.line)

/-- What the head of a `for` loop begins with. -/
inductive StartedIn : List Token → Option Stmt → Prop where
  | absent {semicolon : Token} (closes : semicolon.kind = .semicolon) :
      StartedIn [semicolon] none
  | declaration {tokens : List Token} {tree : Stmt} (declared : DeclaredIn tokens tree) :
      StartedIn tokens (some tree)
  | expression {tokens : List Token} {tree : Stmt} (evaluated : EvaluatedIn tokens tree) :
      StartedIn tokens (some tree)

/-- The increment of a `for` loop as a statement. -/
inductive SteppedIn : List Token → Option Stmt → Prop where
  | absent : SteppedIn [] none
  | present {first : Token} {tokens : List Token} {tree : Expr} (read : tree.ReadFrom tokens)
      (begins : tokens.head? = some first) :
      SteppedIn tokens (some (.evaluate tree first.line))

/-- A body with a step behind it, in a block on the given line. -/
def withStep (body : Stmt) (line : Nat) : Option Stmt → Stmt
  | none => body
  | some step => .block [body, step] line

/-- A loop with a statement in front of it, in a block on the given line. -/
def startedBy (loop : Stmt) (line : Nat) : Option Stmt → Stmt
  | none => loop
  | some start => .block [start, loop] line

end Stmt

mutual

/-- The tokens that a statement is read from, and its lines. -/
inductive Stmt.ReadFrom : List Token → Stmt → Prop where
  | function {keyword opening closing : Token} {head inside : List Token} {name : String}
      {parameters : List Parameter} {result : DeclaredType} {body : List Stmt}
      (headed : (keyword :: head).map Token.symbol = Surface.headSpelling name parameters result)
      (opens : opening.kind = .leftBrace) (each : AllReadFrom inside body)
      (closes : closing.kind = .rightBrace) :
      ReadFrom (keyword :: (head ++ opening :: (inside ++ [closing])))
        (.function name parameters result body opening.line keyword.line)
  | declare {tokens : List Token} {tree : Stmt} (declared : tree.DeclaredIn tokens) :
      ReadFrom tokens tree
  | block {opening closing : Token} {inside : List Token} {statements : List Stmt}
      (opens : opening.kind = .leftBrace) (each : AllReadFrom inside statements)
      (closes : closing.kind = .rightBrace) :
      ReadFrom (opening :: (inside ++ [closing])) (.block statements opening.line)
  | evaluate {tokens : List Token} {tree : Stmt} (evaluated : tree.EvaluatedIn tokens) :
      ReadFrom tokens tree
  | returns {keyword semicolon : Token} {tokens : List Token} {value : Option Expr}
      (keyed : keyword.kind = .returnWord) (given : Expr.OptionalIn tokens value)
      (closes : semicolon.kind = .semicolon) :
      ReadFrom (keyword :: (tokens ++ [semicolon])) (.returns value keyword.line)
  | branch {keyword opening closing : Token} {inside tokens : List Token} {condition : Expr}
      {whenTrue : Stmt} (keyed : keyword.kind = .ifWord) (opens : opening.kind = .leftParen)
      (tested : condition.ReadFrom inside) (closes : closing.kind = .rightParen)
      (first : ReadFrom tokens whenTrue) :
      ReadFrom (keyword :: opening :: (inside ++ closing :: tokens))
        (.branch condition whenTrue none keyword.line)
  | choice {keyword opening closing otherwise : Token} {inside front back : List Token}
      {condition : Expr} {whenTrue whenFalse : Stmt} (keyed : keyword.kind = .ifWord)
      (opens : opening.kind = .leftParen) (tested : condition.ReadFrom inside)
      (closes : closing.kind = .rightParen) (first : ReadFrom front whenTrue)
      (divides : otherwise.kind = .elseWord) (second : ReadFrom back whenFalse) :
      ReadFrom (keyword :: opening :: (inside ++ closing :: (front ++ otherwise :: back)))
        (.branch condition whenTrue (some whenFalse) keyword.line)
  | whileLoop {keyword opening closing : Token} {inside tokens : List Token} {condition : Expr}
      {body : Stmt} (keyed : keyword.kind = .whileWord) (opens : opening.kind = .leftParen)
      (tested : condition.ReadFrom inside) (closes : closing.kind = .rightParen)
      (nested : ReadFrom tokens body) :
      ReadFrom (keyword :: opening :: (inside ++ closing :: tokens))
        (.loop condition body false keyword.line)
  | forLoop {keyword opening closing : Token} {starting testing stepping tokens : List Token}
      {start step : Option Stmt} {condition : Expr} {body : Stmt}
      (keyed : keyword.kind = .forWord) (opens : opening.kind = .leftParen)
      (started : StartedIn starting start) (tested : condition.TestedIn testing)
      (stepped : SteppedIn stepping step) (closes : closing.kind = .rightParen)
      (nested : ReadFrom tokens body) :
      ReadFrom (keyword :: opening :: (starting ++ (testing ++ (stepping ++ closing :: tokens))))
        (startedBy (.loop condition (body.withStep keyword.line step) step.isSome keyword.line)
          keyword.line start)
  | leave {keyword semicolon : Token} (keyed : keyword.kind = .breakWord)
      (closes : semicolon.kind = .semicolon) : ReadFrom [keyword, semicolon] (.leave keyword.line)
  | proceed {keyword semicolon : Token} (keyed : keyword.kind = .continueWord)
      (closes : semicolon.kind = .semicolon) : ReadFrom [keyword, semicolon] (.proceed keyword.line)

/-- Statements one after the other. -/
inductive Stmt.AllReadFrom : List Token → List Stmt → Prop where
  | nil : AllReadFrom [] []
  | cons {front back : List Token} {tree : Stmt} {others : List Stmt} (read : ReadFrom front tree)
      (rest : AllReadFrom back others) : AllReadFrom (front ++ back) (tree :: others)

end

def Program.ReadFrom (tokens : List Token) (program : Program) : Prop :=
  Stmt.AllReadFrom tokens program.declarations

namespace Surface

section

variable {tokens : List Token}

/-- The lines behind the symbols of a part. -/
theorem drop_lines {symbols : List Symbol} (spelled : tokens.map Token.symbol = symbols)
    (more : List Nat) : (tokens.map Token.line ++ more).drop symbols.length = more := by
  rw [← spelled, List.length_map, List.drop_left' (List.length_map ..)]

private theorem Expr.WellFormed.begins {expression : Expr} (proper : expression.WellFormed)
    (spelled : tokens.map Token.symbol = expression.spelling) :
    ∃ first, tokens.head? = some first ∧
      ∀ more, (tokens.map Token.line ++ more).headD 0 = first.line := by
  obtain ⟨symbol, symbols, same, _⟩ := proper.head
  obtain ⟨first, rest, rfl, _, _⟩ := List.map_eq_cons_iff.mp (spelled.trans same)
  exact ⟨first, rfl, fun _ => rfl⟩

private theorem listedIn {expressions : List Expr}
    (each : ∀ expression ∈ expressions, ∀ {tokens : List Token},
      tokens.map Token.symbol = expression.spelling →
        ∀ more, (expression.desugar (tokens.map Token.line ++ more)).ReadFrom tokens)
    (spelled : tokens.map Token.symbol = separated (Expr.spellings expressions))
    (more : List Nat) :
    Scriptlet.Expr.ListedIn tokens
      (Expr.desugarAll expressions (tokens.map Token.line ++ more)) := by
  induction expressions generalizing tokens with
  | nil =>
    obtain rfl := List.map_eq_nil_iff.mp spelled
    exact .none
  | cons first rest ih =>
    obtain ⟨head, tail⟩ := List.forall_mem_cons.mp each
    cases rest with
    | nil => exact .last (head spelled more)
    | cons second others =>
      obtain ⟨front, behind, rfl, before, spelled⟩ := List.map_eq_append_iff.mp spelled
      obtain ⟨comma, back, rfl, mark, after⟩ := List.map_eq_cons_iff.mp spelled
      rw [Expr.desugarAll, List.map_append, List.append_assoc, drop_lines before]
      exact .more (head before _) (congrArg Symbol.kind mark) (ih tail after)

private theorem Expr.WellFormed.readFrom {expression : Expr} (proper : expression.WellFormed)
    (spelled : tokens.map Token.symbol = expression.spelling) (more : List Nat) :
    (expression.desugar (tokens.map Token.line ++ more)).ReadFrom tokens := by
  induction proper generalizing tokens more with
  | literal =>
    obtain ⟨token, rfl, stands⟩ := List.map_eq_singleton_iff.mp spelled
    exact .literal (congrArg Symbol.literal stands)
  | identifier =>
    obtain ⟨token, rfl, stands⟩ := List.map_eq_singleton_iff.mp spelled
    exact .identifier (congrArg Symbol.literal stands)
  | parenthesized nested ih =>
    obtain ⟨opening, rest, rfl, opens, spelled⟩ := List.map_eq_cons_iff.mp spelled
    obtain ⟨inside, behind, rfl, inner, spelled⟩ := List.map_eq_append_iff.mp spelled
    obtain ⟨closing, rfl, closes⟩ := List.map_eq_singleton_iff.mp spelled
    rw [List.map_cons, List.map_append, List.cons_append, List.append_assoc]
    exact .parenthesized (congrArg Symbol.kind opens) (ih inner _) (congrArg Symbol.kind closes)
  | member tight nested ih =>
    obtain ⟨front, behind, rfl, before, spelled⟩ := List.map_eq_append_iff.mp spelled
    obtain ⟨dot, rest, rfl, dotted, spelled⟩ := List.map_eq_cons_iff.mp spelled
    obtain ⟨word, rfl, named⟩ := List.map_eq_singleton_iff.mp spelled
    obtain ⟨first, begins, line⟩ := nested.begins before
    rw [List.map_append, List.append_assoc, Expr.desugar, line]
    exact .member (ih before _) begins (congrArg Symbol.kind dotted) (congrArg Symbol.literal named)
  | call tight nested few each ih others =>
    obtain ⟨front, behind, rfl, before, spelled⟩ := List.map_eq_append_iff.mp spelled
    obtain ⟨opening, rest, rfl, opens, spelled⟩ := List.map_eq_cons_iff.mp spelled
    obtain ⟨inside, behind, rfl, inner, spelled⟩ := List.map_eq_append_iff.mp spelled
    obtain ⟨closing, rfl, closes⟩ := List.map_eq_singleton_iff.mp spelled
    obtain ⟨first, begins, line⟩ := nested.begins before
    rw [List.map_append, List.append_assoc, Expr.desugar, line, drop_lines before, List.map_cons,
      List.map_append, List.cons_append, List.append_assoc]
    exact .call (ih before _) begins (congrArg Symbol.kind opens)
      (listedIn (fun argument member _ => others argument member) inner _)
      (congrArg Symbol.kind closes)
  | unary tight nested ih =>
    obtain ⟨sign, behind, rfl, signed, spelled⟩ := List.map_eq_cons_iff.mp spelled
    exact .unary (congrArg Symbol.kind signed) (ih spelled more)
  | binary tight first tighter second ih other =>
    obtain ⟨front, behind, rfl, before, spelled⟩ := List.map_eq_append_iff.mp spelled
    obtain ⟨sign, back, rfl, signed, after⟩ := List.map_eq_cons_iff.mp spelled
    obtain ⟨begin, begins, line⟩ := first.begins before
    rw [List.map_append, List.append_assoc, Expr.desugar, line, drop_lines before]
    exact .binary (ih before _) begins (congrArg Symbol.kind signed) (other after more)
  | assign nested ih =>
    obtain ⟨target, rest, rfl, named, spelled⟩ := List.map_eq_cons_iff.mp spelled
    obtain ⟨sign, behind, rfl, signed, spelled⟩ := List.map_eq_cons_iff.mp spelled
    exact .assign (congrArg Symbol.literal named) (congrArg Symbol.kind signed) (ih spelled more)

private theorem optionalIn {value : Option Expr}
    (proper : ∀ expression ∈ value, expression.WellFormed)
    (spelled : tokens.map Token.symbol = optionalSpelling value) (more : List Nat) :
    Scriptlet.Expr.OptionalIn tokens
      (value.map fun expression => expression.desugar (tokens.map Token.line ++ more)) := by
  cases value with
  | none =>
    obtain rfl := List.map_eq_nil_iff.mp spelled
    exact .absent
  | some expression => exact .present ((proper expression rfl).readFrom spelled more)

private theorem declaredIn {name : String} {type : DeclaredType} {value : Option Expr}
    (proper : ∀ expression ∈ value, expression.WellFormed)
    (spelled : tokens.map Token.symbol = declarationSpelling name type value) (more : List Nat) :
    (declarationTree name type value (tokens.map Token.line ++ more)).DeclaredIn tokens := by
  obtain ⟨word, rest, rfl, named, spelled⟩ := List.map_eq_cons_iff.mp spelled
  obtain ⟨colon, behind, rfl, typed, spelled⟩ := List.map_eq_cons_iff.mp spelled
  obtain ⟨typing, behind, rfl, written, spelled⟩ := List.map_eq_append_iff.mp spelled
  have named := congrArg Symbol.literal named
  have typed := congrArg Symbol.kind typed
  cases value with
  | none =>
    obtain ⟨semicolon, rfl, closes⟩ := List.map_eq_singleton_iff.mp spelled
    exact .plain named typed written (congrArg Symbol.kind closes)
  | some expression =>
    obtain ⟨sign, behind, rfl, signed, spelled⟩ := List.map_eq_cons_iff.mp spelled
    obtain ⟨tokens, behind, rfl, valued, spelled⟩ := List.map_eq_append_iff.mp spelled
    obtain ⟨semicolon, rfl, closes⟩ := List.map_eq_singleton_iff.mp spelled
    simp only [declarationTree, List.map_cons, List.cons_append, List.drop_succ_cons,
      List.drop_zero, List.map_append, List.append_assoc, drop_lines written, Option.map_some,
      List.headD_cons]
    exact .valued named typed written (congrArg Symbol.kind signed)
      ((proper expression rfl).readFrom valued _) (congrArg Symbol.kind closes)

private theorem evaluatedIn {expression : Expr} (proper : expression.WellFormed)
    (spelled : tokens.map Token.symbol = expression.spelling ++ [.mark .semicolon])
    (more : List Nat) :
    (Scriptlet.Stmt.evaluate (expression.desugar (tokens.map Token.line ++ more))
      ((tokens.map Token.line ++ more).headD 0)).EvaluatedIn tokens := by
  obtain ⟨tokens, behind, rfl, read, spelled⟩ := List.map_eq_append_iff.mp spelled
  obtain ⟨semicolon, rfl, closes⟩ := List.map_eq_singleton_iff.mp spelled
  obtain ⟨first, begins, line⟩ := proper.begins read
  rw [List.map_append, List.append_assoc, line]
  exact .evaluate (proper.readFrom read _) begins (congrArg Symbol.kind closes)

private theorem startedIn {initializer : Initializer} (proper : initializer.WellFormed)
    (spelled : tokens.map Token.symbol = initializer.spelling) (more : List Nat) :
    Scriptlet.Stmt.StartedIn tokens (initializer.desugar (tokens.map Token.line ++ more)) := by
  cases initializer with
  | absent =>
    obtain ⟨semicolon, rfl, closes⟩ := List.map_eq_singleton_iff.mp spelled
    exact .absent (congrArg Symbol.kind closes)
  | declaration name type value =>
    refine .declaration (declaredIn ?_ spelled more)
    rintro _ ⟨⟩
    exact proper
  | expression value => exact .expression (evaluatedIn proper spelled more)

private theorem testedIn {condition : Option Expr} {semicolon : Token}
    (proper : ∀ expression ∈ condition, expression.WellFormed)
    (spelled : tokens.map Token.symbol = optionalSpelling condition)
    (closes : semicolon.kind = .semicolon) (more : List Nat) :
    (conditionTree condition (tokens.map Token.line ++ semicolon.line :: more)).TestedIn
      (tokens ++ [semicolon]) := by
  cases condition with
  | none =>
    obtain rfl := List.map_eq_nil_iff.mp spelled
    exact .absent closes
  | some expression => exact .present ((proper expression rfl).readFrom spelled _) closes

private theorem steppedIn {increment : Option Expr}
    (proper : ∀ expression ∈ increment, expression.WellFormed)
    (spelled : tokens.map Token.symbol = optionalSpelling increment) (more : List Nat) :
    Scriptlet.Stmt.SteppedIn tokens
      ((increment.map fun expression => expression.desugar (tokens.map Token.line ++ more)).map
        fun step => .evaluate step step.line) := by
  cases increment with
  | none =>
    obtain rfl := List.map_eq_nil_iff.mp spelled
    exact .absent
  | some expression =>
    have read := (proper expression rfl).readFrom spelled more
    obtain ⟨first, begins, line⟩ := (proper expression rfl).begins spelled
    simp only [Option.map_some, Expr.line_desugar, line]
    exact .present read begins

private theorem forTree_eq (start : Option Scriptlet.Stmt) (condition : Scriptlet.Expr)
    (increment : Option Scriptlet.Expr) (body : Scriptlet.Stmt) (line : Nat) :
    forTree start condition increment body line =
      (Scriptlet.Stmt.loop condition
        (body.withStep line (increment.map fun step => .evaluate step step.line))
        (increment.map fun step => Scriptlet.Stmt.evaluate step step.line).isSome line).startedBy
          line start := by
  cases start <;> cases increment <;> rfl

private theorem allReadFrom {statements : List Stmt}
    (each : ∀ statement ∈ statements, ∀ {tokens : List Token},
      tokens.map Token.symbol = statement.spelling →
        ∀ more, (statement.desugar (tokens.map Token.line ++ more)).ReadFrom tokens)
    (spelled : tokens.map Token.symbol = Stmt.spellings statements) (more : List Nat) :
    Scriptlet.Stmt.AllReadFrom tokens
      (Stmt.desugarAll statements (tokens.map Token.line ++ more)) := by
  induction statements generalizing tokens with
  | nil =>
    obtain rfl := List.map_eq_nil_iff.mp spelled
    exact .nil
  | cons first rest ih =>
    obtain ⟨head, tail⟩ := List.forall_mem_cons.mp each
    obtain ⟨front, back, rfl, before, behind⟩ := List.map_eq_append_iff.mp spelled
    rw [Stmt.desugarAll, List.map_append, List.append_assoc, drop_lines before]
    exact .cons (head before _) (ih tail behind)

/-- A keyword and a condition in parentheses, with what stands behind them. -/
theorem exists_condition {keyword : Kind} {condition : Expr} {symbols : List Symbol}
    (proper : condition.WellFormed)
    (spelled : tokens.map Token.symbol = conditionSpelling keyword condition ++ symbols) :
    ∃ keyed opening inside closing behind,
      tokens = keyed :: opening :: (inside ++ closing :: behind) ∧ keyed.kind = keyword ∧
        opening.kind = .leftParen ∧ closing.kind = .rightParen ∧
        behind.map Token.symbol = symbols ∧ ∀ more,
          (condition.desugar ((tokens.map Token.line ++ more).drop 2)).ReadFrom inside ∧
          (tokens.map Token.line ++ more).drop (conditionSpelling keyword condition).length =
            behind.map Token.line ++ more := by
  obtain ⟨front, behind, rfl, before, after⟩ := List.map_eq_append_iff.mp spelled
  have dropped (more : List Nat) := drop_lines before (behind.map Token.line ++ more)
  obtain ⟨keyed, rest, rfl, isKeyword, before⟩ := List.map_eq_cons_iff.mp before
  obtain ⟨opening, rest, rfl, opens, before⟩ := List.map_eq_cons_iff.mp before
  obtain ⟨inside, rest, rfl, tested, before⟩ := List.map_eq_append_iff.mp before
  obtain ⟨closing, rfl, closes⟩ := List.map_eq_singleton_iff.mp before
  refine ⟨keyed, opening, inside, closing, behind, by simp, congrArg Symbol.kind isKeyword,
    congrArg Symbol.kind opens, congrArg Symbol.kind closes, after, fun more => ⟨?_, ?_⟩⟩
  · have read := proper.readFrom tested (closing.line :: (behind.map Token.line ++ more))
    simpa using read
  · rw [List.map_append, List.append_assoc]
    exact dropped more

private theorem Stmt.WellFormed.readFrom {statement : Stmt} {inLoop : Bool}
    (proper : statement.WellFormed inLoop) (spelled : tokens.map Token.symbol = statement.spelling)
    (more : List Nat) :
    (statement.desugar (tokens.map Token.line ++ more)).ReadFrom tokens := by
  induction proper generalizing tokens more with
  | function few each ih =>
    obtain ⟨front, behind, rfl, headed, spelled⟩ := List.map_eq_append_iff.mp spelled
    obtain ⟨opening, behind, rfl, opens, spelled⟩ := List.map_eq_cons_iff.mp spelled
    obtain ⟨inside, behind, rfl, inner, spelled⟩ := List.map_eq_append_iff.mp spelled
    obtain ⟨closing, rfl, closes⟩ := List.map_eq_singleton_iff.mp spelled
    simp only [Stmt.desugar, List.map_append, List.append_assoc, drop_lines headed]
    obtain ⟨keyword, head, rfl, _, _⟩ := List.map_eq_cons_iff.mp headed
    simp only [List.map_cons, List.map_append, List.cons_append, List.append_assoc, List.headD_cons,
      List.drop_succ_cons, List.drop_zero]
    exact .function headed (congrArg Symbol.kind opens)
      (allReadFrom (fun statement member _ => ih statement member) inner _)
      (congrArg Symbol.kind closes)
  | declare initial => exact .declare (declaredIn initial spelled more)
  | block each ih =>
    obtain ⟨opening, behind, rfl, opens, spelled⟩ := List.map_eq_cons_iff.mp spelled
    obtain ⟨inside, behind, rfl, inner, spelled⟩ := List.map_eq_append_iff.mp spelled
    obtain ⟨closing, rfl, closes⟩ := List.map_eq_singleton_iff.mp spelled
    rw [List.map_cons, List.map_append, List.cons_append, List.append_assoc]
    exact .block (congrArg Symbol.kind opens)
      (allReadFrom (fun statement member _ => ih statement member) inner _)
      (congrArg Symbol.kind closes)
  | evaluate nested => exact .evaluate (evaluatedIn nested spelled more)
  | returns result =>
    obtain ⟨keyword, behind, rfl, keyed, spelled⟩ := List.map_eq_cons_iff.mp spelled
    obtain ⟨tokens, behind, rfl, given, spelled⟩ := List.map_eq_append_iff.mp spelled
    obtain ⟨semicolon, rfl, closes⟩ := List.map_eq_singleton_iff.mp spelled
    rw [List.map_cons, List.map_append, List.cons_append, List.append_assoc]
    exact .returns (congrArg Symbol.kind keyed) (optionalIn result given _)
      (congrArg Symbol.kind closes)
  | branch test noDeclaration first ih =>
    obtain ⟨keyword, opening, inside, closing, behind, rfl, keyed, opens, closes, spelled,
      parts⟩ := exists_condition test spelled
    obtain ⟨tested, dropped⟩ := parts more
    rw [Stmt.desugar, dropped]
    exact .branch keyed opens tested closes (ih spelled more)
  | choice test noDeclaration closed first noOther second ih other =>
    obtain ⟨keyword, opening, inside, closing, behind, rfl, keyed, opens, closes, spelled,
      parts⟩ := exists_condition test spelled
    obtain ⟨tested, dropped⟩ := parts more
    obtain ⟨front, behind, rfl, before, spelled⟩ := List.map_eq_append_iff.mp spelled
    obtain ⟨otherwise, back, rfl, divides, after⟩ := List.map_eq_cons_iff.mp spelled
    simp only [Stmt.desugar, dropped]
    rw [List.map_append, List.append_assoc, drop_lines before]
    exact .choice keyed opens tested closes (ih before _) (congrArg Symbol.kind divides)
      (other after more)
  | whileLoop test noDeclaration nested ih =>
    obtain ⟨keyword, opening, inside, closing, behind, rfl, keyed, opens, closes, spelled,
      parts⟩ := exists_condition test spelled
    obtain ⟨tested, dropped⟩ := parts more
    rw [Stmt.desugar, dropped]
    exact .whileLoop keyed opens tested closes (ih spelled more)
  | forLoop start test step noDeclaration nested ih =>
    obtain ⟨front, behind, rfl, before, after⟩ := List.map_eq_append_iff.mp spelled
    have dropped := drop_lines before (behind.map Token.line ++ more)
    obtain ⟨keyword, rest, rfl, keyed, before⟩ := List.map_eq_cons_iff.mp before
    obtain ⟨opening, rest, rfl, opens, before⟩ := List.map_eq_cons_iff.mp before
    obtain ⟨starting, rest, rfl, started, before⟩ := List.map_eq_append_iff.mp before
    obtain ⟨testing, rest, rfl, tested, before⟩ := List.map_eq_append_iff.mp before
    obtain ⟨semicolon, rest, rfl, divides, before⟩ := List.map_eq_cons_iff.mp before
    obtain ⟨stepping, rest, rfl, stepped, before⟩ := List.map_eq_append_iff.mp before
    obtain ⟨closing, rfl, closes⟩ := List.map_eq_singleton_iff.mp before
    simp only [Stmt.desugar, forTree_eq]
    rw [List.map_append, List.append_assoc, dropped]
    simp only [List.map_cons, List.map_append, List.cons_append, List.append_assoc,
      List.drop_succ_cons, List.drop_zero, List.headD_cons, drop_lines started, drop_lines tested]
    rw [List.nil_append, List.append_cons testing]
    exact .forLoop (congrArg Symbol.kind keyed) (congrArg Symbol.kind opens)
      (startedIn start started _) (testedIn test tested (congrArg Symbol.kind divides) _)
      (steppedIn step stepped _) (congrArg Symbol.kind closes) (ih after more)
  | leave =>
    obtain ⟨keyword, behind, rfl, keyed, spelled⟩ := List.map_eq_cons_iff.mp spelled
    obtain ⟨semicolon, rfl, closes⟩ := List.map_eq_singleton_iff.mp spelled
    exact .leave (congrArg Symbol.kind keyed) (congrArg Symbol.kind closes)
  | proceed =>
    obtain ⟨keyword, behind, rfl, keyed, spelled⟩ := List.map_eq_cons_iff.mp spelled
    obtain ⟨semicolon, rfl, closes⟩ := List.map_eq_singleton_iff.mp spelled
    exact .proceed (congrArg Symbol.kind keyed) (congrArg Symbol.kind closes)

end

end Surface

namespace Grammar

/-- What stands behind the first token that ends a source is not read. -/
theorem parse_append {front back : List Token} {last : Token} (ends : last.kind = .endOfFile)
    (inside : ∀ token ∈ front, token.kind ≠ .endOfFile) :
    parse (front ++ last :: back) = parse (front ++ [last]) := by
  rw [parse, parse, Outline.ofTokens, Outline.ofTokens, ofTokens_append ends inside,
    ofTokens_append ends inside]

private theorem readFrom_of_parse {tokens : List Token} {last : Token} {program : Program}
    (each : ∀ token ∈ tokens, token.WellFormed ∧ token.kind ≠ .endOfFile)
    (final : last.WellFormed) (ends : last.kind = .endOfFile)
    (success : parse (tokens ++ [last]) = .ok program) : program.ReadFrom tokens := by
  obtain ⟨written, spelled, rfl⟩ := parse_reads each final ends success
  rw [List.map_append]
  exact Surface.allReadFrom
    (fun statement member _ => (written.wellFormed statement member).readFrom) spelled _

/-- Every node of a program that is read from well-formed tokens has the line of the first of the
tokens that it is read from; and where these are the tokens of a source, each of them has the
line that counts the line ends in front of it. -/
theorem parse_lines :
    (∀ (tokens : List Token) (program : Program), (∀ token ∈ tokens, token.WellFormed) →
      (∃ last, tokens.getLast? = some last ∧ last.kind = .endOfFile) →
        parse tokens = .ok program →
          program.ReadFrom (tokens.takeWhile fun token => token.kind ≠ .endOfFile)) ∧
    ∀ (source : NamedSource) (program : Program), source.program = .ok program →
      ∃ tokens last, Token.scan source.text = .ok (tokens ++ [last]) ∧ last.kind = .endOfFile ∧
        program.ReadFrom tokens ∧ ∀ token ∈ tokens,
          token.line = 1 + Text.newlines (Text.slice source.text 0 token.span.offset).toList := by
  constructor
  · rintro tokens program proper ⟨final, isLast, finalEnds⟩ success
    -- The first token that ends a source need not be the last one of the list.
    obtain ⟨last, found⟩ : ∃ last, tokens.find? (fun token => token.kind = .endOfFile) =
        some last := by
      refine Option.isSome_iff_exists.mp (List.find?_isSome.mpr ⟨final, ?_, ?_⟩)
      · exact List.mem_of_getLast? isLast
      · simpa using finalEnds
    obtain ⟨ends, front, back, rfl, before⟩ := List.find?_eq_some_iff_append.mp found
    have inside : ∀ token ∈ front, token.kind ≠ .endOfFile := by simpa using before
    have isEnd : last.kind = .endOfFile := by simpa using ends
    have taken : (front ++ last :: back).takeWhile (fun token => token.kind ≠ .endOfFile) =
        front := congrArg Stream.ahead (ofTokens_append isEnd inside)
    rw [parse_append isEnd inside] at success
    rw [taken]
    refine readFrom_of_parse (fun token member => ⟨proper token ?_, inside token member⟩)
      (proper last (by simp)) isEnd success
    exact List.mem_append_left _ member
  · intro source program success
    rw [NamedSource.program] at success
    cases scanned : source.tokens with
    | error error =>
      rw [scanned] at success
      cases success
    | ok tokens =>
      rw [scanned] at success
      have scan := NamedSource.scan_of_tokens scanned
      have parsed : parse tokens = .ok program := Except.ok_of_mapError success
      obtain ⟨front, last, rfl, fits, ends, each⟩ := Token.scan_wellFormed scan
      refine ⟨front, last, scan, ends, readFrom_of_parse each fits ends parsed, ?_⟩
      intro token member
      exact (Token.placed_of_scan scan token (List.mem_append_left _ member)).line

/-- A loop without a condition whose increment stands on a line of its own. -/
def spreadLoop : NamedSource := ⟨"main", "for (;\n  ;\n  b)\ncontinue;"⟩

def spreadTokens : List Token :=
  [⟨.forWord, none, 1, ⟨0, 3⟩⟩, ⟨.leftParen, none, 1, ⟨4, 1⟩⟩, ⟨.semicolon, none, 1, ⟨5, 1⟩⟩,
    ⟨.semicolon, none, 2, ⟨9, 1⟩⟩, ⟨.identifier, some (.identifier "b"), 3, ⟨13, 1⟩⟩,
    ⟨.rightParen, none, 3, ⟨14, 1⟩⟩, ⟨.continueWord, none, 4, ⟨16, 8⟩⟩,
    ⟨.semicolon, none, 4, ⟨24, 1⟩⟩, ⟨.endOfFile, none, 4, ⟨25, 0⟩⟩]

def spreadProgram : Program where
  declarations :=
    [.loop (.literal (.bool true) 2) (.block [.proceed 4, .evaluate (.identifier "b" 3) 3] 1) true
      1]

theorem spreadLoop_lines :
    ∃ tokens last, Token.scan spreadLoop.text = .ok (tokens ++ [last]) ∧ last.kind = .endOfFile ∧
      spreadProgram.ReadFrom tokens ∧ ∀ token ∈ tokens,
        token.line = 1 + Text.newlines (Text.slice spreadLoop.text 0 token.span.offset).toList := by
  have scanned : Token.scan spreadLoop.text = .ok spreadTokens := by decide +kernel
  have read : spreadLoop.program = .ok spreadProgram := by
    rw [NamedSource.program, NamedSource.tokens, scanned]
    rfl
  exact parse_lines.2 spreadLoop spreadProgram read

end Grammar

end Scriptlet
