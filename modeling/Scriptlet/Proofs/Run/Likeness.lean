import Mathlib.Data.List.Forall2
import Scriptlet.Proofs.Run.Padding

/-! Programs that are alike. A likeness says which names of variables, which names of
functions and which lines may stand for each other; trees are alike if they differ in
nothing else but their declared types. Scopes are alike if they hold like variables with the
same values and like functions. -/
namespace Scriptlet

open Run

/-- What may differ between two programs. Like names are like in both directions, and a
builtin is like nothing but itself. If `missing` holds, the right program may have functions
that the left one lacks. -/
structure Likeness where
  sameVariable : String → String → Prop
  sameFunction : String → String → Prop
  sameLine : Nat → Nat → Prop
  missing : Prop
  variable_iff {first second twin other : String} : sameVariable first twin →
    sameVariable second other → (first = second ↔ twin = other)
  function_iff {first second twin other : String} : sameFunction first twin →
    sameFunction second other → (first = second ↔ twin = other)
  builtin {name twin : String} : sameFunction name twin →
    Builtin.ofName? name = Builtin.ofName? twin

section Trees

variable (likeness : Likeness)

/-- Expressions that are alike. An identifier names a function where it is called and a
variable everywhere else. -/
inductive Expr.Like : Expr → Expr → Prop where
  | literal {value : Value} {line other : Nat} (lines : likeness.sameLine line other) :
      Like (.literal value line) (.literal value other)
  | identifier {name twin : String} {line other : Nat} (names : likeness.sameVariable name twin)
      (lines : likeness.sameLine line other) : Like (.identifier name line) (.identifier twin other)
  | unary {operator : UnaryOperator} {operand twin : Expr} {line other : Nat}
      (operands : Like operand twin) (lines : likeness.sameLine line other) :
      Like (.unary operator operand line) (.unary operator twin other)
  | binary {left right first second : Expr} {operator : BinaryOperator} {line other : Nat}
      (lefts : Like left first) (rights : Like right second)
      (lines : likeness.sameLine line other) :
      Like (.binary left operator right line) (.binary first operator second other)
  | member {object twin : Expr} {name : String} {line other : Nat} (objects : Like object twin)
      (lines : likeness.sameLine line other) :
      Like (.member object name line) (.member twin name other)
  | named {name twin : String} {nameLine twinLine : Nat} {arguments others : List Expr}
      {line other : Nat} (names : likeness.sameFunction name twin)
      (each : List.Forall₂ Like arguments others) (lines : likeness.sameLine line other) :
      Like (.call (.identifier name nameLine) arguments line)
        (.call (.identifier twin twinLine) others other)
  | unnamed {callee twin : Expr} {arguments others : List Expr} {line other : Nat}
      (callees : Like callee twin) (noName : calleeName? callee = none)
      (each : List.Forall₂ Like arguments others) (lines : likeness.sameLine line other) :
      Like (.call callee arguments line) (.call twin others other)
  | parenthesized {inner twin : Expr} {line other : Nat} (nested : Like inner twin)
      (lines : likeness.sameLine line other) :
      Like (.parenthesized inner line) (.parenthesized twin other)
  | assign {name twin : String} {value result : Expr} {line other : Nat}
      (names : likeness.sameVariable name twin) (values : Like value result)
      (lines : likeness.sameLine line other) :
      Like (.assign name value line) (.assign twin result other)

def Parameter.Like (parameter twin : Parameter) : Prop :=
  likeness.sameVariable parameter.name twin.name

/-- Statements that are alike. Nothing is asked of their types. -/
inductive Stmt.Like : Stmt → Stmt → Prop where
  | block {statements others : List Stmt} {line other : Nat}
      (each : List.Forall₂ Like statements others) (lines : likeness.sameLine line other) :
      Like (.block statements line) (.block others other)
  | evaluate {expression twin : Expr} {line other : Nat} (nested : expression.Like likeness twin)
      (lines : likeness.sameLine line other) :
      Like (.evaluate expression line) (.evaluate twin other)
  | declare {name twin : String} {type twinType : DeclaredType} {value result : Option Expr}
      {line other : Nat} (names : likeness.sameVariable name twin)
      (values : Option.Rel (Expr.Like likeness) value result)
      (lines : likeness.sameLine line other) :
      Like (.declare name type value line) (.declare twin twinType result other)
  | returns {value result : Option Expr} {line other : Nat}
      (values : Option.Rel (Expr.Like likeness) value result)
      (lines : likeness.sameLine line other) : Like (.returns value line) (.returns result other)
  | branch {condition test : Expr} {whenTrue first : Stmt} {whenFalse second : Option Stmt}
      {line other : Nat} (conditions : condition.Like likeness test) (firsts : Like whenTrue first)
      (seconds : Option.Rel Like whenFalse second) (lines : likeness.sameLine line other) :
      Like (.branch condition whenTrue whenFalse line) (.branch test first second other)
  | loop {condition test : Expr} {body twin : Stmt} {stepped : Bool} {line other : Nat}
      (conditions : condition.Like likeness test) (bodies : Like body twin)
      (lines : likeness.sameLine line other) :
      Like (.loop condition body stepped line) (.loop test twin stepped other)
  | leave {line other : Nat} (lines : likeness.sameLine line other) :
      Like (.leave line) (.leave other)
  | proceed {line other : Nat} (lines : likeness.sameLine line other) :
      Like (.proceed line) (.proceed other)
  | function {name twin : String} {parameters others : List Parameter}
      {result twinResult : DeclaredType} {body twinBody : List Stmt}
      {bodyLine twinBodyLine line other : Nat} (names : likeness.sameFunction name twin)
      (named : List.Forall₂ (Parameter.Like likeness) parameters others)
      (bodies : List.Forall₂ Like body twinBody) (lines : likeness.sameLine line other) :
      Like (.function name parameters result body bodyLine line)
        (.function twin others twinResult twinBody twinBodyLine other)

structure Function.Like (function twin : Function) : Prop where
  names : likeness.sameFunction function.name twin.name
  named : List.Forall₂ (Parameter.Like likeness) function.parameters twin.parameters
  bodies : List.Forall₂ (Stmt.Like likeness) function.body twin.body
  lines : likeness.sameLine function.line twin.line

end Trees

section

variable {likeness : Likeness}

theorem Expr.Like.calleeName? {expression twin : Expr} (alike : expression.Like likeness twin)
    (noName : calleeName? expression = none) : calleeName? twin = none := by
  cases alike with
  | identifier => cases noName
  | _ => rfl

theorem Stmt.Like.line {statement twin : Stmt} (alike : statement.Like likeness twin) :
    likeness.sameLine statement.line twin.line := by
  cases alike <;> assumption

/-- Like loops have like increments, or none. -/
theorem Stmt.Like.increment? {body twin : Stmt} (alike : body.Like likeness twin)
    (stepped : Bool) :
    Option.Rel (Stmt.Like likeness) (increment? stepped body) (increment? stepped twin) := by
  cases stepped with
  | false => exact .none
  | true =>
    cases alike with
    | @block statements others line other each lines =>
      have backwards := List.forall₂_reverse_iff.mpr each
      simp only [Run.increment?, List.getLast?_eq_head?_reverse]
      generalize statements.reverse = first at backwards
      generalize others.reverse = second at backwards
      cases backwards with
      | nil => exact .none
      | cons last _ => exact .some last
    | _ => exact .none

end

section Errors

variable (likeness : Likeness)

inductive ScopeFault.Like : ScopeFault → ScopeFault → Prop where
  | variableDefined {name twin : String} (names : likeness.sameVariable name twin) :
      Like (.variableDefined name) (.variableDefined twin)
  | functionDefined {name twin : String} (names : likeness.sameFunction name twin) :
      Like (.functionDefined name) (.functionDefined twin)
  | undefinedVariable {name twin : String} (names : likeness.sameVariable name twin) :
      Like (.undefinedVariable name) (.undefinedVariable twin)
  | unassignedVariable {name twin : String} (names : likeness.sameVariable name twin) :
      Like (.unassignedVariable name) (.unassignedVariable twin)
  | undefinedFunction {name twin : String} (names : likeness.sameFunction name twin) :
      Like (.undefinedFunction name) (.undefinedFunction twin)

inductive Run.Cause.Like : Cause → Cause → Prop where
  | operator {fault : OperatorFault} : Like (.operator fault) (.operator fault)
  | scope {fault twin : ScopeFault} (faults : fault.Like likeness twin) :
      Like (.scope fault) (.scope twin)
  | arity {name twin : String} {expected given : Nat} (names : likeness.sameFunction name twin) :
      Like (.arity name expected given) (.arity twin expected given)
  | noValue {name twin : String} (names : likeness.sameFunction name twin) :
      Like (.noValue name) (.noValue twin)
  | unnamedCallee : Like .unnamedCallee .unnamedCallee
  | memberAccess {name : String} : Like (.memberAccess name) (.memberAccess name)
  | nestedFunction {name twin : String} (names : likeness.sameFunction name twin) :
      Like (.nestedFunction name) (.nestedFunction twin)
  | escapedLoopControl {name twin : String} (names : likeness.sameFunction name twin) :
      Like (.escapedLoopControl name) (.escapedLoopControl twin)
  | writeRefused {reason : String} : Like (.writeRefused reason) (.writeRefused reason)

/-- Errors of like causes, both at like lines or both without a line. -/
structure Run.Error.Like (error twin : Error) : Prop where
  causes : error.cause.Like likeness twin.cause
  lines : Option.Rel likeness.sameLine error.line twin.line

inductive Run.Interruption.Like : Interruption → Interruption → Prop where
  | failed {error twin : Error} (errors : Error.Like likeness error twin) :
      Like (.failed error) (.failed twin)
  | unfinished : Like .unfinished .unfinished

end Errors

/-- What a run says that wants a function. -/
def Run.Interruption.lacksFunction : Interruption → Bool
  | .failed ⟨.scope (.undefinedFunction _), _⟩ => true
  | _ => false

theorem Run.Interruption.exists_of_lacksFunction {reason : Interruption}
    (lacks : reason.lacksFunction = true) :
    ∃ name line, reason = .failed ⟨.scope (.undefinedFunction name), line⟩ := by
  unfold lacksFunction at lacks
  split at lacks
  · exact ⟨_, _, rfl⟩
  · cases lacks

section

variable {likeness : Likeness}

theorem Run.Error.Like.withLine {error twin : Error} (errors : Error.Like likeness error twin)
    {line other : Nat} (lines : likeness.sameLine line other) :
    Error.Like likeness (error.withLine line) (twin.withLine other) := by
  refine ⟨errors.causes, ?_⟩
  obtain ⟨cause, place⟩ := error
  obtain ⟨reason, position⟩ := twin
  cases errors.lines with
  | some same => exact .some same
  | none => exact .some lines

theorem Run.Interruption.Like.withLine {reason twin : Interruption}
    (reasons : reason.Like likeness twin) {line other : Nat}
    (lines : likeness.sameLine line other) :
    Interruption.Like likeness (reason.withLine line) (twin.withLine other) := by
  cases reasons with
  | failed errors => exact .failed (errors.withLine lines)
  | unfinished => exact .unfinished

theorem Run.Interruption.lacksFunction_withLine (reason : Interruption) (line : Nat) :
    (reason.withLine line).lacksFunction = reason.lacksFunction := by
  rcases reason with ⟨_ | ⟨_ | _ | _ | _ | _⟩ | _ | _ | _ | _ | _ | _ | _, _⟩ | _ <;> rfl

end

section Scopes

variable (likeness : Likeness)

/-- Like variables in the same order, with the same values. -/
def SlotsLike (slots others : List (String × Option Value)) : Prop :=
  List.Forall₂ (fun entry twin => likeness.sameVariable entry.1 twin.1 ∧ entry.2 = twin.2)
    slots others

/-- What two scopes have under like names of functions. -/
inductive FoundLike : Option Function → Option Function → Prop where
  | found {function twin : Function} (functions : function.Like likeness twin) :
      FoundLike (some function) (some twin)
  | absent : FoundLike none none
  | missing {function : Function} (lacks : likeness.missing) : FoundLike none (some function)

structure Scope.Like (scope other : Scope) : Prop where
  slots : SlotsLike likeness scope.slots other.slots
  functions {name twin : String} : likeness.sameFunction name twin →
    FoundLike likeness (scope.function? name) (other.function? twin)

/-- Chains of like scopes. Only the outermost ones hold functions. -/
inductive ScopesLike : List Scope → List Scope → Prop where
  | root {scope other : Scope} (globals : scope.Like likeness other) : ScopesLike [scope] [other]
  | inner {slots others : List (String × Option Value)} {scopes twins : List Scope}
      (locals : SlotsLike likeness slots others) (rest : ScopesLike scopes twins) :
      ScopesLike (⟨slots, []⟩ :: scopes) (⟨others, []⟩ :: twins)

def Chain.Like (chain other : Chain) : Prop := ScopesLike likeness chain.scopes other.scopes

/-- Machines with like chains and the same output. -/
structure Run.Machine.Like (machine other : Machine) : Prop where
  chains : machine.chain.Like likeness other.chain
  consoles : machine.console = other.console

end Scopes

section

variable {likeness : Likeness} {slots others : List (String × Option Value)}
  {scopes twins : List Scope} {chain other : Chain} {name twin : String}

theorem SlotsLike.lookup (alike : SlotsLike likeness slots others)
    (names : likeness.sameVariable name twin) : slots.lookup name = others.lookup twin := by
  induction alike with
  | nil => rfl
  | @cons entry copy slots others first _ ih =>
    obtain ⟨key, value⟩ := entry
    obtain ⟨counterpart, _⟩ := copy
    obtain ⟨keys, rfl⟩ := first
    have same : (name == key) = (twin == counterpart) := by
      rw [Bool.eq_iff_iff, beq_iff_eq, beq_iff_eq, likeness.variable_iff names keys]
    rw [List.lookup_cons, List.lookup_cons, same, ih]

theorem SlotsLike.assign (alike : SlotsLike likeness slots others)
    (names : likeness.sameVariable name twin) (value : Value) :
    SlotsLike likeness
      (slots.map fun entry => if entry.1 = name then (name, some value) else entry)
      (others.map fun entry => if entry.1 = twin then (twin, some value) else entry) := by
  refine List.forall₂_map_left_iff.mpr (List.forall₂_map_right_iff.mpr (alike.imp ?_))
  intro entry copy same
  by_cases here : entry.1 = name
  · have there : copy.1 = twin := (likeness.variable_iff same.1 names).mp here
    rw [if_pos here, if_pos there]
    exact ⟨names, rfl⟩
  · have elsewhere : copy.1 ≠ twin := fun there =>
      here ((likeness.variable_iff same.1 names).mpr there)
    rw [if_neg here, if_neg elsewhere]
    exact same

/-- A scope gets a value for one of its variables, or has none of that name. -/
theorem SlotsLike.assign? (alike : SlotsLike likeness slots others)
    (names : likeness.sameVariable name twin) (value : Value)
    (functions copies : List (String × Function)) :
    (∃ changed altered, SlotsLike likeness changed altered ∧
      Scope.assign? ⟨slots, functions⟩ name value = some ⟨changed, functions⟩ ∧
      Scope.assign? ⟨others, copies⟩ twin value = some ⟨altered, copies⟩) ∨
    Scope.assign? ⟨slots, functions⟩ name value = none ∧
      Scope.assign? ⟨others, copies⟩ twin value = none := by
  simp only [Scope.assign?, Scope.slot?, ← alike.lookup names]
  cases slots.lookup name with
  | none => exact .inr ⟨rfl, rfl⟩
  | some slot => exact .inl ⟨_, _, alike.assign names value, rfl, rfl⟩

theorem ScopesLike.lookup (alike : ScopesLike likeness scopes twins)
    (names : likeness.sameVariable name twin) :
    scopes.findSome? (·.slot? name) = twins.findSome? (·.slot? twin) := by
  induction alike with
  | root globals =>
    rw [List.findSome?_cons, List.findSome?_cons, Scope.slot?, Scope.slot?,
      globals.slots.lookup names]
    rfl
  | inner locals _ ih =>
    rw [List.findSome?_cons, List.findSome?_cons, Scope.slot?, Scope.slot?, locals.lookup names, ih]

theorem ScopesLike.lookupFunction (alike : ScopesLike likeness scopes twins)
    (names : likeness.sameFunction name twin) :
    FoundLike likeness (scopes.findSome? (·.function? name))
      (twins.findSome? (·.function? twin)) := by
  induction alike with
  | root globals =>
    simpa only [List.findSome?_singleton] using globals.functions names
  | inner _ _ ih => exact ih

theorem ScopesLike.assign (alike : ScopesLike likeness scopes twins)
    (names : likeness.sameVariable name twin) (value : Value) :
    Option.Rel (ScopesLike likeness) (Chain.assignIn? name value scopes)
      (Chain.assignIn? twin value twins) := by
  induction alike with
  | @root scope copy globals =>
    obtain ⟨slots, functions⟩ := scope
    obtain ⟨others, copies⟩ := copy
    rcases globals.slots.assign? names value functions copies with
      ⟨_, _, changed, left, right⟩ | ⟨left, right⟩
    · simp only [Chain.assignIn?, left, right]
      exact .some (.root ⟨changed, globals.functions⟩)
    · simp only [Chain.assignIn?, left, right, Option.map_none]
      exact .none
  | inner locals rest ih =>
    rcases locals.assign? names value [] [] with ⟨_, _, changed, left, right⟩ | ⟨left, right⟩
    · simp only [Chain.assignIn?, left, right]
      exact .some (.inner changed rest)
    · simp only [Chain.assignIn?, left, right]
      generalize Chain.assignIn? name value _ = first at ih
      generalize Chain.assignIn? twin value _ = second at ih
      cases ih with
      | some further => exact .some (.inner locals further)
      | none => exact .none

namespace Chain.Like

theorem push (alike : chain.Like likeness other) : chain.push.Like likeness other.push :=
  .inner .nil alike

theorem pop (alike : chain.Like likeness other) : chain.pop.Like likeness other.pop := by
  obtain ⟨current, outer⟩ := chain
  obtain ⟨twin, others⟩ := other
  cases alike with
  | root globals => exact .root globals
  | inner locals rest =>
    cases rest with
    | root globals => exact .root globals
    | inner locals rest => exact .inner locals rest

theorem root {scope other : Scope} (globals : scope.Like likeness other) :
    (Chain.root scope).Like likeness (Chain.root other) :=
  ScopesLike.root globals

/-- Assigning gives like chains, or the same variable is undefined in both. -/
theorem assign (alike : chain.Like likeness other) (names : likeness.sameVariable name twin)
    (value : Value) :
    (∃ changed altered, chain.assign name value = .ok changed ∧
      other.assign twin value = .ok altered ∧ changed.Like likeness altered) ∨
    chain.assign name value = .error (.undefinedVariable name) ∧
      other.assign twin value = .error (.undefinedVariable twin) := by
  have first := chain.assign_eq name value
  have second := other.assign_eq twin value
  have scopes := ScopesLike.assign alike names value
  generalize Chain.assignIn? name value chain.scopes = left at first scopes
  generalize Chain.assignIn? twin value other.scopes = right at second scopes
  cases scopes with
  | some changed =>
    simp only [reduceCtorEq, and_false, or_false, Option.some.injEq] at first second
    obtain ⟨_, first, rfl⟩ := first
    obtain ⟨_, second, rfl⟩ := second
    exact .inl ⟨_, _, first, second, changed⟩
  | none =>
    simp only [reduceCtorEq, and_false, exists_false, and_true, false_or] at first second
    exact .inr ⟨first, second⟩

/-- Defining gives like chains, or the same variable is defined already. -/
theorem define (alike : chain.Like likeness other) (names : likeness.sameVariable name twin)
    (value : Option Value) :
    (∃ changed altered, chain.defineVariable name value = .ok changed ∧
      other.defineVariable twin value = .ok altered ∧ changed.Like likeness altered) ∨
    chain.defineVariable name value = .error (.variableDefined name) ∧
      other.defineVariable twin value = .error (.variableDefined twin) := by
  obtain ⟨current, outer⟩ := chain
  obtain ⟨copy, others⟩ := other
  simp only [Chain.defineVariable, Scope.defineVariable, Scope.slot?]
  cases alike with
  | root globals =>
    rw [← globals.slots.lookup names]
    cases current.slots.lookup name with
    | some slot => exact .inr ⟨rfl, rfl⟩
    | none =>
      exact .inl ⟨_, _, rfl, rfl, .root ⟨.cons ⟨names, rfl⟩ globals.slots, globals.functions⟩⟩
  | @inner slots _ _ _ locals rest =>
    simp only [← locals.lookup names]
    cases slots.lookup name with
    | some slot => exact .inr ⟨rfl, rfl⟩
    | none => exact .inl ⟨_, _, rfl, rfl, .inner (.cons ⟨names, rfl⟩ locals) rest⟩

end Chain.Like

end

end Scriptlet
