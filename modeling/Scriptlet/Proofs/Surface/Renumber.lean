import Scriptlet.Proofs.Grammar.Ladder

/-! Other lines for the same program. A tree records nothing of the lines of its symbols but
these lines themselves, and only those of its own symbols: where the lines change, the tree is
the same with its lines changed. -/
namespace Scriptlet

mutual

/-- Change every line of a tree. -/
def Expr.mapLines (change : Nat → Nat) : Expr → Expr
  | .literal value line => .literal value (change line)
  | .identifier name line => .identifier name (change line)
  | .unary operator operand line => .unary operator (operand.mapLines change) (change line)
  | .binary left operator right line =>
    .binary (left.mapLines change) operator (right.mapLines change) (change line)
  | .member object name line => .member (object.mapLines change) name (change line)
  | .call callee arguments line =>
    .call (callee.mapLines change) (Expr.mapAllLines change arguments) (change line)
  | .parenthesized inner line => .parenthesized (inner.mapLines change) (change line)
  | .assign name value line => .assign name (value.mapLines change) (change line)

def Expr.mapAllLines (change : Nat → Nat) : List Expr → List Expr
  | [] => []
  | first :: rest => first.mapLines change :: Expr.mapAllLines change rest

end

mutual

/-- Change every line of a tree, also that of a function body. -/
def Stmt.mapLines (change : Nat → Nat) : Stmt → Stmt
  | .block statements line => .block (Stmt.mapAllLines change statements) (change line)
  | .evaluate expression line => .evaluate (expression.mapLines change) (change line)
  | .declare name type initializer line =>
    .declare name type (initializer.map (Expr.mapLines change)) (change line)
  | .returns value line => .returns (value.map (Expr.mapLines change)) (change line)
  | .branch condition whenTrue none line =>
    .branch (condition.mapLines change) (whenTrue.mapLines change) none (change line)
  | .branch condition whenTrue (some whenFalse) line =>
    .branch (condition.mapLines change) (whenTrue.mapLines change)
      (some (whenFalse.mapLines change)) (change line)
  | .loop condition body stepped line =>
    .loop (condition.mapLines change) (body.mapLines change) stepped (change line)
  | .leave line => .leave (change line)
  | .proceed line => .proceed (change line)
  | .function name parameters result body bodyLine line =>
    .function name parameters result (Stmt.mapAllLines change body) (change bodyLine) (change line)

def Stmt.mapAllLines (change : Nat → Nat) : List Stmt → List Stmt
  | [] => []
  | first :: rest => first.mapLines change :: Stmt.mapAllLines change rest

end

theorem Stmt.mapAllLines_eq_map (change : Nat → Nat) (statements : List Stmt) :
    Stmt.mapAllLines change statements = statements.map (Stmt.mapLines change) := by
  induction statements with
  | nil => rfl
  | cons first rest ih => rw [Stmt.mapAllLines, ih, List.map_cons]

private theorem Expr.line_mapLines (change : Nat → Nat) (expression : Expr) :
    (expression.mapLines change).line = change expression.line := by
  cases expression <;> rfl

namespace Surface

variable {change : Nat → Nat} {count : Nat} {lines others : List Nat}

/-- The first lines of a list are those of another list, changed. -/
def Renumbered (change : Nat → Nat) (count : Nat) (lines others : List Nat) : Prop :=
  ∀ index < count, ∃ line, lines[index]? = some line ∧ others[index]? = some (change line)

namespace Renumbered

theorem headD (same : Renumbered change count lines others) (some : 0 < count) :
    others.headD 0 = change (lines.headD 0) := by
  obtain ⟨line, here, there⟩ := same 0 some
  rw [List.headD_eq_head?_getD, List.headD_eq_head?_getD, List.head?_eq_getElem?,
    List.head?_eq_getElem?, here, there]
  rfl

/-- Only the first lines of a list matter. -/
theorem upTo {fewer : Nat} (same : Renumbered change count lines others) (fits : fewer ≤ count) :
    Renumbered change fewer lines others :=
  fun index below => same index (Nat.lt_of_lt_of_le below fits)

theorem map (change : Nat → Nat) (lines : List Nat) :
    Renumbered change lines.length lines (lines.map change) := by
  intro index below
  exact ⟨lines[index], List.getElem?_eq_getElem below, by simp [below]⟩

theorem append (front back others : List Nat) :
    Renumbered id front.length (front ++ back) (front ++ others) := by
  intro index below
  rw [List.getElem?_append_left below, List.getElem?_append_left below]
  exact ⟨front[index], List.getElem?_eq_getElem below, List.getElem?_eq_getElem below⟩

theorem drop {skipped : Nat} (same : Renumbered change count lines others) :
    Renumbered change (count - skipped) (lines.drop skipped) (others.drop skipped) := by
  intro index below
  rw [List.getElem?_drop, List.getElem?_drop]
  exact same (skipped + index) (by omega)

end Renumbered

private theorem separated_le_length (first : List Symbol) (rest : List (List Symbol)) :
    (separated rest).length ≤ (separated (first :: rest)).length - first.length - 1 := by
  cases rest with
  | nil => exact Nat.zero_le _
  | cons second rest =>
    simp only [separated, List.length_append, List.length_cons]
    omega

private theorem Expr.spelling_pos (expression : Expr) : 0 < expression.spelling.length := by
  cases expression <;> simp only [Expr.spelling, List.length_append, List.length_cons] <;> omega

theorem Renumbered.line {expression : Expr}
    (same : Renumbered change expression.spelling.length lines others) :
    others.headD 0 = change (lines.headD 0) :=
  same.headD expression.spelling_pos

private theorem renumbered_arguments {arguments : List Expr}
    (each : ∀ argument ∈ arguments, ∀ lines others,
      Renumbered change argument.spelling.length lines others →
        argument.desugar others = (argument.desugar lines).mapLines change)
    {lines others : List Nat}
    (same : Renumbered change (separated (Expr.spellings arguments)).length lines others) :
    Expr.desugarAll arguments others =
      Scriptlet.Expr.mapAllLines change (Expr.desugarAll arguments lines) := by
  induction arguments generalizing lines others with
  | nil => rfl
  | cons first rest ih =>
    obtain ⟨head, tail⟩ := List.forall_mem_cons.mp each
    rw [Expr.spellings] at same
    have front := head lines others (same.upTo (length_le_separated (List.mem_cons_self ..)))
    have behind := ih tail (same.drop.drop.upTo (separated_le_length first.spelling _))
    simp only [Expr.desugarAll, Scriptlet.Expr.mapAllLines, front, behind]

private theorem Expr.WellFormed.desugar_renumbered {expression : Expr}
    (proper : expression.WellFormed) {lines others : List Nat}
    (same : Renumbered change expression.spelling.length lines others) :
    expression.desugar others = (expression.desugar lines).mapLines change := by
  induction proper generalizing lines others with
  | literal => simp only [Expr.desugar, Scriptlet.Expr.mapLines, same.line]
  | identifier => simp only [Expr.desugar, Scriptlet.Expr.mapLines, same.line]
  | parenthesized _ ih =>
    simp only [Expr.desugar, Scriptlet.Expr.mapLines, same.line]
    congr 1
    exact ih (same.drop.upTo (by simp [Expr.spelling]))
  | member _ _ ih =>
    simp only [Expr.desugar, Scriptlet.Expr.mapLines, same.line]
    congr 1
    exact ih (same.upTo (by simp [Expr.spelling]))
  | call _ _ _ _ ih arguments =>
    simp only [Expr.desugar, Scriptlet.Expr.mapLines, same.line]
    congr 1
    · exact ih (same.upTo (by simp [Expr.spelling]))
    · refine renumbered_arguments (fun argument given lines others => arguments argument given) ?_
      exact same.drop.drop.upTo (by simp [Expr.spelling])
  | unary _ _ ih =>
    simp only [Expr.desugar, Scriptlet.Expr.mapLines, same.line]
    congr 1
    exact ih (same.drop.upTo (by simp [Expr.spelling]))
  | binary _ _ _ _ ih other =>
    simp only [Expr.desugar, Scriptlet.Expr.mapLines, same.line]
    congr 1
    · exact ih (same.upTo (by simp [Expr.spelling]))
    · exact other (same.drop.drop.upTo (by simp [Expr.spelling]))
  | assign _ ih =>
    simp only [Expr.desugar, Scriptlet.Expr.mapLines, same.line]
    congr 1
    exact ih (same.drop.upTo (by simp [Expr.spelling]))

private theorem renumbered_map {value : Option Expr}
    (proper : ∀ expression ∈ value, expression.WellFormed)
    (same : Renumbered change (optionalSpelling value).length lines others) :
    (value.map fun expression => expression.desugar others) =
      (value.map fun expression => expression.desugar lines).map
        (Scriptlet.Expr.mapLines change) := by
  cases value with
  | none => rfl
  | some expression => simp only [Option.map_some, (proper expression rfl).desugar_renumbered same]

private theorem renumbered_declarationTree {name : String} {type : DeclaredType}
    {value : Option Expr} (proper : ∀ expression ∈ value, expression.WellFormed)
    (same : Renumbered change (declarationSpelling name type value).length lines others) :
    declarationTree name type value others =
      (declarationTree name type value lines).mapLines change := by
  simp only [declarationTree, Stmt.mapLines, same.headD (by simp [declarationSpelling])]
  congr 1
  refine renumbered_map proper (same.drop.drop.drop.upTo ?_)
  cases value <;> simp [declarationSpelling, optionalSpelling, valueSpelling]

private theorem renumbered_initializer {initializer : Initializer} (proper : initializer.WellFormed)
    (same : Renumbered change initializer.spelling.length lines others) :
    initializer.desugar others = (initializer.desugar lines).map (Stmt.mapLines change) := by
  cases initializer with
  | absent => rfl
  | declaration name type value =>
    have valued : ∀ expression ∈ some value, expression.WellFormed := by
      rintro _ ⟨⟩
      exact proper
    simp only [Initializer.desugar, renumbered_declarationTree valued same, Option.map_some]
  | expression value =>
    have valued : value.WellFormed := proper
    have inside : Renumbered change value.spelling.length lines others :=
      same.upTo (by simp [Initializer.spelling])
    simp only [Initializer.desugar, valued.desugar_renumbered inside, inside.line, Option.map_some,
      Stmt.mapLines]

/-- A condition that is left out has the line of the symbol behind it. -/
theorem renumbered_conditionTree {condition : Option Expr}
    (proper : ∀ expression ∈ condition, expression.WellFormed)
    (same : Renumbered change ((optionalSpelling condition).length + 1) lines others) :
    conditionTree condition others = (conditionTree condition lines).mapLines change := by
  cases condition with
  | none => simp only [conditionTree, Scriptlet.Expr.mapLines, same.headD (Nat.succ_pos _)]
  | some expression => exact (proper expression rfl).desugar_renumbered (same.upTo (Nat.le_succ _))

private theorem mapLines_forTree (initializer : Option Scriptlet.Stmt) (condition : Scriptlet.Expr)
    (increment : Option Scriptlet.Expr) (body : Scriptlet.Stmt) (line : Nat) :
    (forTree initializer condition increment body line).mapLines change =
      forTree (initializer.map (Stmt.mapLines change)) (condition.mapLines change)
        (increment.map (Scriptlet.Expr.mapLines change)) (body.mapLines change) (change line) := by
  cases initializer <;> cases increment <;>
    simp [forTree, Stmt.mapLines, Stmt.mapAllLines, Scriptlet.Expr.line_mapLines]

theorem renumbered_desugarAll {statements : List Stmt}
    (each : ∀ statement ∈ statements, ∀ lines others,
      Renumbered change statement.spelling.length lines others →
        statement.desugar others = (statement.desugar lines).mapLines change)
    {lines others : List Nat}
    (same : Renumbered change (Stmt.spellings statements).length lines others) :
    Stmt.desugarAll statements others =
      Stmt.mapAllLines change (Stmt.desugarAll statements lines) := by
  induction statements generalizing lines others with
  | nil => rfl
  | cons first rest ih =>
    obtain ⟨head, tail⟩ := List.forall_mem_cons.mp each
    have front := head lines others (same.upTo (by simp [Stmt.spellings]))
    simp only [Stmt.desugarAll, Stmt.mapAllLines, front]
    congr 1
    exact ih tail (same.drop.upTo (by simp [Stmt.spellings]))

private theorem Stmt.spelling_pos (statement : Stmt) : 0 < statement.spelling.length := by
  cases statement <;>
    simp [Stmt.spelling, headSpelling, declarationSpelling, conditionSpelling, clausesSpelling]

theorem Stmt.WellFormed.desugar_renumbered {statement : Stmt} {inLoop : Bool}
    (proper : statement.WellFormed inLoop) {lines others : List Nat}
    (same : Renumbered change statement.spelling.length lines others) :
    statement.desugar others = (statement.desugar lines).mapLines change := by
  have line {written : Stmt} {lines others : List Nat}
      (same : Renumbered change written.spelling.length lines others) :
      others.headD 0 = change (lines.headD 0) := same.headD written.spelling_pos
  induction proper generalizing lines others with
  | @function _ name parameters result body _ _ ih =>
    have brace : Renumbered change 1 (lines.drop (headSpelling name parameters result).length)
        (others.drop (headSpelling name parameters result).length) :=
      same.drop.upTo (by simp [Stmt.spelling])
    simp only [Stmt.desugar, Stmt.mapLines, line same, brace.headD Nat.one_pos]
    congr 1
    exact renumbered_desugarAll (fun statement held lines others => ih statement held)
      (same.drop.drop.upTo (by simp [Stmt.spelling]))
  | declare initial => exact renumbered_declarationTree initial same
  | block _ ih =>
    simp only [Stmt.desugar, Stmt.mapLines, line same]
    congr 1
    exact renumbered_desugarAll (fun statement held lines others => ih statement held)
      (same.drop.upTo (by simp [Stmt.spelling]))
  | evaluate nested =>
    simp only [Stmt.desugar, Stmt.mapLines, line same]
    congr 1
    exact nested.desugar_renumbered (same.upTo (by simp [Stmt.spelling]))
  | returns result =>
    simp only [Stmt.desugar, Stmt.mapLines, line same]
    congr 1
    exact renumbered_map result (same.drop.upTo (by simp [Stmt.spelling]))
  | branch test _ _ ih =>
    simp only [Stmt.desugar, Stmt.mapLines, line same]
    congr 1
    · exact test.desugar_renumbered (same.drop.upTo (by simp [Stmt.spelling, conditionSpelling]))
    · exact ih (same.drop.upTo (by simp [Stmt.spelling]))
  | choice test _ _ _ _ _ ih other =>
    simp only [Stmt.desugar, Stmt.mapLines, line same]
    congr 1
    · exact test.desugar_renumbered (same.drop.upTo (by simp [Stmt.spelling, conditionSpelling]))
    · exact ih (same.drop.upTo (by simp [Stmt.spelling]))
    · congr 1
      exact other (same.drop.drop.drop.upTo (by simp [Stmt.spelling]))
  | whileLoop test _ _ ih =>
    simp only [Stmt.desugar, Stmt.mapLines, line same]
    congr 1
    · exact test.desugar_renumbered (same.drop.upTo (by simp [Stmt.spelling, conditionSpelling]))
    · exact ih (same.drop.upTo (by simp [Stmt.spelling]))
  | forLoop start test step _ _ ih =>
    simp only [Stmt.desugar, mapLines_forTree, line same]
    congr 1
    · exact renumbered_initializer start
        (same.drop.upTo (by simp [Stmt.spelling, clausesSpelling]))
    · exact renumbered_conditionTree test
        (same.drop.drop.upTo (by simp [Stmt.spelling, clausesSpelling]))
    · exact renumbered_map step
        (same.drop.drop.drop.drop.upTo (by simp [Stmt.spelling, clausesSpelling]))
    · exact ih (same.drop.upTo (by simp [Stmt.spelling]))
  | leave => simp only [Stmt.desugar, Stmt.mapLines, line same]
  | proceed => simp only [Stmt.desugar, Stmt.mapLines, line same]

end Surface

end Scriptlet
