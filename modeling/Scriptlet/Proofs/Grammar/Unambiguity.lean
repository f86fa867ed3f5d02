import Scriptlet.Proofs.Grammar.StatementComplete

/-! Spellings are unambiguous. Two programs with one spelling are read as one tree, and the
tree and the spelling together determine the program: the tree forgets only which loops were
written with `for` and which of their conditions were left out, and the spelling tells. -/
namespace Scriptlet

namespace Surface

/-- Expressions differ where their trees do. -/
theorem Expr.WellFormed.desugar_injective {expression other : Expr}
    (proper : expression.WellFormed) (same : expression.desugar [] = other.desugar []) :
    expression = other := by
  induction proper generalizing other with
  | literal => cases other <;> simp_all [Expr.desugar]
  | identifier => cases other <;> simp_all [Expr.desugar]
  | parenthesized nested ih =>
    cases other <;> simp only [Expr.desugar, List.drop_nil, reduceCtorEq] at same
    rw [ih (Scriptlet.Expr.parenthesized.inj same).1]
  | member tight nested ih =>
    cases other <;> simp only [Expr.desugar, reduceCtorEq] at same
    obtain ⟨object, rfl, _⟩ := Scriptlet.Expr.member.inj same
    rw [ih object]
  | @call callee arguments tight nested few each ih others =>
    cases other <;> simp only [Expr.desugar, List.drop_nil, reduceCtorEq] at same
    rename_i otherCallee otherArguments
    have all (list : List Expr) (equal : Expr.desugarAll arguments [] = Expr.desugarAll list []) :
        arguments = list := by
      clear few each same
      induction arguments generalizing list with
      | nil =>
        cases list with
        | nil => rfl
        | cons => cases equal
      | cons first rest inner =>
        obtain ⟨head, tail⟩ := List.forall_mem_cons.mp others
        cases list with
        | nil => cases equal
        | cons second list =>
          simp only [Expr.desugarAll, List.drop_nil, List.cons.injEq] at equal
          rw [head equal.1, inner tail list equal.2]
    obtain ⟨called, given, _⟩ := Scriptlet.Expr.call.inj same
    rw [ih called, all otherArguments given]
  | unary tight nested ih =>
    cases other <;> simp only [Expr.desugar, List.drop_nil, reduceCtorEq] at same
    obtain ⟨rfl, operand, _⟩ := Scriptlet.Expr.unary.inj same
    rw [ih operand]
  | binary tight first tighter second ih otherIh =>
    cases other <;> simp only [Expr.desugar, List.drop_nil, reduceCtorEq] at same
    obtain ⟨left, rfl, right, _⟩ := Scriptlet.Expr.binary.inj same
    rw [ih left, otherIh right]
  | assign nested ih =>
    cases other <;> simp only [Expr.desugar, List.drop_nil, reduceCtorEq] at same
    obtain ⟨rfl, value, _⟩ := Scriptlet.Expr.assign.inj same
    rw [ih value]

private theorem map_desugar_injective {value other : Option Expr}
    (proper : ∀ expression ∈ value, expression.WellFormed)
    (same : (value.map fun expression => expression.desugar []) =
      other.map fun expression => expression.desugar []) : value = other := by
  cases value <;> cases other <;> simp only [Option.map_none, Option.map_some, reduceCtorEq] at same
  · rfl
  · rw [(proper _ rfl).desugar_injective (Option.some.inj same)]

private theorem Initializer.WellFormed.desugar_injective {initializer other : Initializer}
    (proper : initializer.WellFormed) (same : initializer.desugar [] = other.desugar []) :
    initializer = other := by
  cases initializer <;> cases other <;>
    simp only [Initializer.desugar, declarationTree, List.drop_nil, Option.map_some,
      Option.some.injEq, Scriptlet.Stmt.declare.injEq, Scriptlet.Stmt.evaluate.injEq, reduceCtorEq,
      and_true] at same
  case absent => rfl
  case declaration =>
    obtain ⟨rfl, rfl, value⟩ := same
    rw [Expr.WellFormed.desugar_injective proper value]
  case expression => rw [Expr.WellFormed.desugar_injective proper same]

/-- A condition that is left out has the tree of a written `true`, but not its spelling. -/
theorem conditionTree_injective {condition other : Option Expr} {symbols following : List Symbol}
    (proper : ∀ expression ∈ condition, expression.WellFormed)
    (same : conditionTree condition [] = conditionTree other [])
    (spelled : optionalSpelling condition ++ .mark .semicolon :: symbols =
      optionalSpelling other ++ .mark .semicolon :: following) : condition = other := by
  have written {expression : Expr} {front back : List Symbol}
      (literal : expression.desugar [] = .literal (.bool true) 0)
      (spelled : .mark .semicolon :: front = expression.spelling ++ back) : False := by
    cases expression <;> simp only [Expr.desugar, reduceCtorEq] at literal
    cases (Scriptlet.Expr.literal.inj literal).1
    cases spelled
  cases condition <;> cases other
  case none.none => rfl
  case none.some expression => exact (written same.symm spelled).elim
  case some.none expression => exact (written same spelled.symm).elim
  case some.some expression second => rw [(proper expression rfl).desugar_injective same]

private theorem forTree_injective {first second : Option Scriptlet.Stmt}
    {condition otherCondition : Scriptlet.Expr} {increment otherIncrement : Option Scriptlet.Expr}
    {body otherBody : Scriptlet.Stmt}
    (same : forTree first condition increment body 0 =
      forTree second otherCondition otherIncrement otherBody 0) :
    first = second ∧ condition = otherCondition ∧ increment = otherIncrement ∧
      body = otherBody := by
  cases first <;> cases second <;> cases increment <;> cases otherIncrement <;>
    simp_all [forTree]

private theorem Stmt.WellFormed.forLoop_of_spelling {statement : Stmt} {inLoop : Bool}
    {initializer : Initializer} {condition increment : Option Expr} {body : Stmt}
    {symbols following : List Symbol} (proper : statement.WellFormed inLoop)
    (spelled : statement.spelling ++ symbols =
      (Stmt.forLoop initializer condition increment body).spelling ++ following) :
    ∃ first test step body, statement = .forLoop first test step body := by
  obtain ⟨symbol, others, same, _⟩ := proper.head
  rw [same] at spelled
  have keyword : symbol = .mark .forWord := (List.cons.inj spelled).1
  exact proper.eq_forLoop same (congrArg Symbol.kind keyword)

/-- Statements with one tree and one spelling are the same, whatever follows the spelling. -/
def Stmt.Determined (statement : Stmt) : Prop :=
  ∀ (other : Stmt) (inLoop : Bool) (symbols following : List Symbol), other.WellFormed inLoop →
    statement.desugar [] = other.desugar [] →
    statement.spelling ++ symbols = other.spelling ++ following → statement = other

private theorem all_determined {statements others : List Stmt} {inLoop : Bool}
    {symbols following : List Symbol} (each : ∀ statement ∈ statements, statement.Determined)
    (proper : ∀ other ∈ others, other.WellFormed inLoop)
    (same : Stmt.desugarAll statements [] = Stmt.desugarAll others [])
    (spelled : Stmt.spellings statements ++ symbols = Stmt.spellings others ++ following) :
    statements = others := by
  induction statements generalizing others with
  | nil =>
    cases others with
    | nil => rfl
    | cons => cases same
  | cons first rest ih =>
    cases others with
    | nil => cases same
    | cons second others =>
      obtain ⟨determined, tail⟩ := List.forall_mem_cons.mp each
      obtain ⟨head, behind⟩ := List.forall_mem_cons.mp proper
      simp only [Stmt.desugarAll, List.drop_nil, List.cons.injEq] at same
      simp only [Stmt.spellings, List.append_assoc] at spelled
      obtain rfl := determined second inLoop _ _ head same.1 spelled
      rw [ih tail behind same.2 (List.append_cancel_left spelled)]

private theorem Stmt.WellFormed.determined {statement : Stmt} {inLoop : Bool}
    (proper : statement.WellFormed inLoop) : statement.Determined := by
  induction proper with
  | @function _ name parameters result body few each ih =>
    intro other _ symbols following written same spelled
    cases written with
    | @function _ _ _ _ others _ all =>
      simp only [Stmt.desugar, List.drop_nil, Scriptlet.Stmt.function.injEq] at same
      obtain ⟨rfl, rfl, rfl, bodies, _⟩ := same
      simp only [Stmt.spelling, List.append_assoc, List.append_cancel_left_eq, List.cons_append,
        List.cons.injEq, true_and] at spelled
      rw [all_determined ih all bodies spelled]
    | forLoop => cases (List.cons.inj spelled).1
    | _ => cases same
  | declare initial =>
    intro other _ symbols following written same spelled
    cases written with
    | declare =>
      simp only [Stmt.desugar, declarationTree, List.drop_nil,
        Scriptlet.Stmt.declare.injEq] at same
      obtain ⟨rfl, rfl, value, _⟩ := same
      rw [map_desugar_injective initial value]
    | forLoop => cases (List.cons.inj spelled).1
    | _ => cases same
  | block each ih =>
    intro other _ symbols following written same spelled
    cases written with
    | block all =>
      simp only [Stmt.desugar, List.drop_nil, Scriptlet.Stmt.block.injEq] at same
      simp only [Stmt.spelling, List.cons_append, List.append_assoc, List.cons.injEq,
        true_and] at spelled
      rw [all_determined ih all same.1 spelled]
    | forLoop => cases (List.cons.inj spelled).1
    | _ => cases same
  | evaluate nested =>
    intro other _ symbols following written same spelled
    cases written with
    | evaluate =>
      simp only [Stmt.desugar, Scriptlet.Stmt.evaluate.injEq] at same
      rw [nested.desugar_injective same.1]
    | forLoop =>
      have proper : (Stmt.evaluate _).WellFormed false := .evaluate nested
      obtain ⟨_, _, _, _, loop⟩ := proper.forLoop_of_spelling spelled
      cases loop
    | _ => cases same
  | returns result =>
    intro other _ symbols following written same spelled
    cases written with
    | returns =>
      simp only [Stmt.desugar, List.drop_nil, Scriptlet.Stmt.returns.injEq] at same
      rw [map_desugar_injective result same.1]
    | forLoop => cases (List.cons.inj spelled).1
    | _ => cases same
  | branch test _ first ih =>
    intro other _ symbols following written same spelled
    cases written with
    | branch _ _ second =>
      simp only [Stmt.desugar, List.drop_nil, Scriptlet.Stmt.branch.injEq] at same
      obtain rfl := test.desugar_injective same.1
      simp only [Stmt.spelling, List.append_assoc, List.append_cancel_left_eq] at spelled
      rw [ih _ _ _ _ second same.2.1 spelled]
    | choice => simp [Stmt.desugar] at same
    | forLoop => cases (List.cons.inj spelled).1
    | _ => cases same
  | choice test _ _ first _ second ih otherIh =>
    intro other _ symbols following written same spelled
    cases written with
    | choice _ _ _ left _ right =>
      simp only [Stmt.desugar, List.drop_nil, Scriptlet.Stmt.branch.injEq,
        Option.some.injEq] at same
      obtain rfl := test.desugar_injective same.1
      simp only [Stmt.spelling, List.append_assoc, List.append_cancel_left_eq] at spelled
      obtain rfl := ih _ _ _ _ left same.2.1 spelled
      simp only [List.append_cancel_left_eq, List.cons_append, List.cons.injEq, true_and] at spelled
      rw [otherIh _ _ _ _ right same.2.2.1 spelled]
    | branch => simp [Stmt.desugar] at same
    | forLoop => cases (List.cons.inj spelled).1
    | _ => cases same
  | whileLoop test _ nested ih =>
    intro other _ symbols following written same spelled
    cases written with
    | whileLoop _ _ inner =>
      simp only [Stmt.desugar, List.drop_nil, Scriptlet.Stmt.loop.injEq] at same
      obtain rfl := test.desugar_injective same.1
      simp only [Stmt.spelling, List.append_assoc, List.append_cancel_left_eq] at spelled
      rw [ih _ _ _ _ inner same.2.1 spelled]
    | forLoop => cases (List.cons.inj spelled).1
    | _ => cases same
  | @forLoop _ initializer condition increment body start test step _ nested ih =>
    intro other _ symbols following written same spelled
    obtain ⟨first, second, third, inner, rfl⟩ := written.forLoop_of_spelling spelled.symm
    cases written with
    | forLoop _ _ _ _ proper =>
      simp only [Stmt.desugar, List.drop_nil] at same
      obtain ⟨initial, tested, stepped, bodies⟩ := forTree_injective same
      obtain rfl := start.desugar_injective initial
      obtain rfl := map_desugar_injective step stepped
      have conditions := spelled
      simp only [Stmt.spelling, clausesSpelling, List.cons_append, List.append_assoc,
        List.append_cancel_left_eq, List.cons.injEq, true_and] at conditions
      obtain rfl := conditionTree_injective test tested conditions
      simp only [Stmt.spelling, List.append_assoc, List.append_cancel_left_eq] at spelled
      rw [ih _ _ _ _ proper bodies spelled]
  | leave =>
    intro other _ symbols following written same spelled
    cases written with
    | leave => rfl
    | forLoop => cases (List.cons.inj spelled).1
    | _ => cases same
  | proceed =>
    intro other _ symbols following written same spelled
    cases written with
    | proceed => rfl
    | forLoop => cases (List.cons.inj spelled).1
    | _ => cases same

end Surface

namespace Grammar

/-- Programs that are spelled alike are alike. -/
theorem eq_of_spelling_eq {program other : Surface.Program}
    (same : other.spelling = program.spelling) : other = program := by
  have spelled := map_symbol_token program.spelling
  have ends : (Token.endOfFile Text.Position.start).kind = .endOfFile := rfl
  have read := parse_accepts program spelled ends
  have otherRead := parse_accepts other (spelled.trans same.symm) ends
  have trees : other.desugar [] = program.desugar [] := by
    rw [← other.withoutLines_desugar, ← program.withoutLines_desugar]
    exact congrArg _ (Except.ok.inj (otherRead.symm.trans read))
  apply Surface.Program.ext
  exact Surface.all_determined
    (fun statement member => (other.wellFormed statement member).determined) program.wellFormed
    (congrArg Scriptlet.Program.declarations trees) (congrArg (· ++ []) same)

/-- Every program of the grammar is read from the tokens that spell it out, as its desugaring
up to line numbers, and no other program is spelled the same. -/
theorem parse_of_spelling (program : Surface.Program) (tokens : List Token) (last : Token)
    (spelled : tokens.map Token.symbol = program.spelling) (ends : last.kind = .endOfFile) :
    (∃ tree, parse (tokens ++ [last]) = .ok tree ∧ tree.withoutLines = program.desugar []) ∧
      ∀ other : Surface.Program, other.spelling = program.spelling → other = program :=
  ⟨⟨_, parse_accepts program spelled ends, program.withoutLines_desugar _⟩,
    fun _ same => eq_of_spelling_eq same⟩

/-- The program `for (i: int = 0; ; i = i + 1) if (i) break; else continue;`. -/
def countingLoop : Surface.Program where
  statements :=
    [.forLoop (.declaration "i" ⟨"int", 0⟩ (.literal (.int 0))) none
      (some (.assign "i" (.binary (.identifier "i") .add (.literal (.int 1)))))
      (.choice (.identifier "i") .leave .proceed)]
  wellFormed := by
    have sum : (Surface.Expr.binary (.identifier "i") .add (.literal (.int 1))).WellFormed :=
      .binary (by decide) .identifier (by decide) .literal
    have body : (Surface.Stmt.choice (.identifier "i") .leave .proceed).WellFormed true :=
      .choice .identifier rfl rfl .leave rfl .proceed
    intro statement member
    obtain rfl := List.mem_singleton.mp member
    exact .forLoop .literal (by simp) (by rintro expression ⟨⟩; exact .assign sum) rfl body

theorem parse_countingLoop :
    (∃ tree, parse (countingLoop.spelling.map Symbol.token ++
        [Token.endOfFile Text.Position.start]) = .ok tree ∧
        tree.withoutLines = countingLoop.desugar []) ∧
      ∀ other : Surface.Program, other.spelling = countingLoop.spelling → other = countingLoop :=
  parse_of_spelling countingLoop _ _ (map_symbol_token _) rfl

end Grammar

end Scriptlet
