import Scriptlet.Proofs.Run.Lockstep
import Scriptlet.Proofs.Session.Delivery
import Scriptlet.Proofs.Session.Steps

/-! Two sessions with like programs. Loading like programs succeeds in both or stops in both
at the same declaration, and runs of like entries give like results with the same output. -/
namespace Scriptlet

open Run

variable {likeness : Likeness}

section Relations

variable (likeness)

inductive LoadFault.Like : LoadFault → LoadFault → Prop where
  | notAFunction : Like .notAFunction .notAFunction
  | scope {fault twin : ScopeFault} (faults : fault.Like likeness twin) :
      Like (.scope fault) (.scope twin)

structure LoadError.Like (error twin : LoadError) : Prop where
  faults : error.fault.Like likeness twin.fault
  lines : likeness.sameLine error.line twin.line

namespace Session

/-- Sessions with like global scopes that have printed the same. -/
structure Like (session twin : Session) : Prop where
  globals : session.globals.Like likeness twin.globals
  consoles : session.console = twin.console

inductive ResultLike : Except Interruption (Option Value) → Except Interruption (Option Value) →
    Prop where
  | ok {value : Option Value} : ResultLike (.ok value) (.ok value)
  | error {reason twin : Interruption} (reasons : reason.Like likeness twin) :
      ResultLike (.error reason) (.error twin)

end Session

end Relations

namespace Session

/-- Loading declarations stops at the one of an index: those in front of it are loaded, and it
is refused. -/
structure StopsAt (declarations : List Stmt) (scope : Scope) (index : Nat) (error : LoadError) :
    Prop where
  front : loadDeclarations (declarations.take index) scope =
    (.ok (), (loadDeclarations declarations scope).2)
  refused : (loadDeclarations declarations scope).1 = .error error
  placed : declarations[index]?.map Stmt.line = some error.line

theorem StopsAt.here {declaration : Stmt} {rest : List Stmt} {scope : Scope} {fault : LoadFault}
    (stops : loadDeclarations (declaration :: rest) scope =
      (.error ⟨fault, declaration.line⟩, scope)) :
    StopsAt (declaration :: rest) scope 0 ⟨fault, declaration.line⟩ :=
  ⟨by rw [stops]; rfl, by rw [stops], rfl⟩

private theorem loadDeclarations_declaration (function : Function) (rest : List Stmt)
    (scope : Scope) : loadDeclarations (function.declaration :: rest) scope =
      match scope.defineFunction function.name function with
      | .ok extended => loadDeclarations rest extended
      | .error fault => (.error ⟨.scope fault, function.line⟩, scope) := rfl

theorem StopsAt.behind {declarations : List Stmt} {scope extended : Scope} {index : Nat}
    {error : LoadError} {function : Function}
    (defined : scope.defineFunction function.name function = .ok extended)
    (stops : StopsAt declarations extended index error) :
    StopsAt (function.declaration :: declarations) scope (index + 1) error := by
  refine ⟨?_, ?_, stops.placed⟩
  · rw [List.take_succ_cons, loadDeclarations_declaration, loadDeclarations_declaration, defined]
    exact stops.front
  · rw [loadDeclarations_declaration, defined]
    exact stops.refused

variable (likeness) in
/-- Both lists of declarations are loaded, or loading stops at the same index in both. -/
inductive LoadsLike (declarations others : List Stmt) (scope twin : Scope) : Prop where
  | loaded (left : (loadDeclarations declarations scope).1 = .ok ())
      (right : (loadDeclarations others twin).1 = .ok ())
  | stopped {index : Nat} {error copy : LoadError} (left : StopsAt declarations scope index error)
      (right : StopsAt others twin index copy) (errors : error.Like likeness copy)

end Session

private theorem Scope.Like.defineFunction (whole : ¬ likeness.missing) {scope twin : Scope}
    (scopes : scope.Like likeness twin) {function copy : Function}
    (functions : function.Like likeness copy) :
    (∃ extended altered, scope.defineFunction function.name function = .ok extended ∧
      twin.defineFunction copy.name copy = .ok altered ∧ extended.Like likeness altered) ∨
    scope.defineFunction function.name function = .error (.functionDefined function.name) ∧
      twin.defineFunction copy.name copy = .error (.functionDefined copy.name) := by
  have found := scopes.functions functions.names
  rw [Scope.defineFunction, Scope.defineFunction]
  generalize scope.function? function.name = first at found
  generalize twin.function? copy.name = second at found
  cases found with
  | found => exact .inr ⟨rfl, rfl⟩
  | missing lacks => exact absurd lacks whole
  | absent =>
    refine .inl ⟨_, _, rfl, rfl, scopes.slots, ?_⟩
    intro name other names
    have same := likeness.function_iff names functions.names
    simp only [Scope.function?, Scope.lookup_cons]
    by_cases here : name = function.name
    · rw [if_pos here, if_pos (same.mp here)]
      exact .found functions
    · rw [if_neg here, if_neg fun there => here (same.mpr there)]
      exact scopes.functions names

namespace Session

/-- Functions in front are loaded in both, or refused in both. -/
theorem LoadsLike.function (whole : ¬ likeness.missing) (function copy : Function)
    (functions : function.Like likeness copy) {declarations others : List Stmt} {scope twin : Scope}
    (scopes : scope.Like likeness twin)
    (rest : ∀ {scope twin : Scope}, scope.Like likeness twin →
      LoadsLike likeness declarations others scope twin ∧
        (loadDeclarations declarations scope).2.Like likeness (loadDeclarations others twin).2) :
    LoadsLike likeness (function.declaration :: declarations) (copy.declaration :: others) scope
        twin ∧
      (loadDeclarations (function.declaration :: declarations) scope).2.Like likeness
        (loadDeclarations (copy.declaration :: others) twin).2 := by
  rcases scopes.defineFunction whole functions with
    ⟨extended, altered, left, right, further⟩ | ⟨left, right⟩
  · obtain ⟨loads, after⟩ := rest further
    refine ⟨?_, ?_⟩
    · cases loads with
      | loaded first second =>
        refine .loaded ?_ ?_
        · rw [loadDeclarations_declaration, left]
          exact first
        · rw [loadDeclarations_declaration, right]
          exact second
      | stopped first second errors =>
        exact .stopped (first.behind left) (second.behind right) errors
    · rw [loadDeclarations_declaration, loadDeclarations_declaration, left, right]
      exact after
  · have first : loadDeclarations (function.declaration :: declarations) scope =
        (.error ⟨.scope (.functionDefined function.name), function.line⟩, scope) := by
      rw [loadDeclarations_declaration, left]
    have second : loadDeclarations (copy.declaration :: others) twin =
        (.error ⟨.scope (.functionDefined copy.name), copy.line⟩, twin) := by
      rw [loadDeclarations_declaration, right]
    refine ⟨.stopped (.here first) (.here second) ⟨.scope (.functionDefined functions.names),
      functions.lines⟩, ?_⟩
    rw [first, second]
    exact scopes

private theorem loadDeclarations_like (whole : ¬ likeness.missing) {declarations others : List Stmt}
    (each : List.Forall₂ (Stmt.Like likeness) declarations others) {scope twin : Scope}
    (scopes : scope.Like likeness twin) :
    LoadsLike likeness declarations others scope twin ∧
      (loadDeclarations declarations scope).2.Like likeness (loadDeclarations others twin).2 := by
  induction each generalizing scope twin with
  | nil => exact ⟨.loaded rfl rfl, scopes⟩
  | cons first _ ih =>
    have lines := first.line
    cases first with
    | @function name copy parameters copies result copyResult body copyBody bodyLine copyLine
        line other names named bodies lines =>
      exact LoadsLike.function whole ⟨name, parameters, result, body, bodyLine, line⟩
        ⟨copy, copies, copyResult, copyBody, copyLine, other⟩ ⟨names, named, bodies, lines⟩
        scopes ih
    | _ => exact ⟨.stopped (.here rfl) (.here rfl) ⟨.notAFunction, lines⟩, scopes⟩

/-- Loading like programs into like sessions. -/
theorem load_like (whole : ¬ likeness.missing) {program copy : Program}
    (each : List.Forall₂ (Stmt.Like likeness) program.declarations copy.declarations)
    {session twin : Session} (sessions : session.Like likeness twin) :
    LoadsLike likeness program.declarations copy.declarations session.globals twin.globals ∧
      (session.load program).2.Like likeness (twin.load copy).2 := by
  obtain ⟨loads, globals⟩ := loadDeclarations_like whole each sessions.globals
  exact ⟨loads, globals, sessions.consoles⟩

theorem ResultLike.flushed {result twin : Except Interruption (Option Value)}
    (results : ResultLike likeness result twin) (sink : Sink) :
    ResultLike likeness (flushed sink result) (flushed sink twin) := by
  obtain ⟨refusal, flush⟩ := sink
  cases results with
  | ok => cases flush with
    | none => exact .ok
    | some reason => exact .error (.failed ⟨.writeRefused, .none⟩)
  | error reasons =>
    cases reasons with
    | unfinished => exact .error .unfinished
    | failed errors => cases flush with
      | none => exact .error (.failed errors)
      | some reason => exact .error (.failed ⟨.writeRefused, .none⟩)

end Session

/-- The innermost scopes of like chains are alike, whether they hold functions or not. -/
theorem Chain.Like.current {chain other : Chain} (alike : chain.Like likeness other) :
    chain.current.Like likeness other.current := by
  obtain ⟨current, outer⟩ := chain
  obtain ⟨twin, others⟩ := other
  cases alike with
  | root globals => exact globals
  | inner locals _ => exact ⟨locals, fun _ => .absent⟩

namespace Run

private theorem printAll_unflushed (sink : Sink) (evaluate : Expr → Exec (Option Value))
    (arguments : List Expr) :
    printAll { sink with flushRefusal := none } evaluate arguments =
      printAll sink evaluate arguments := by
  induction arguments with
  | nil => rfl
  | cons first rest ih =>
    simp only [printAll, ih]
    rfl

private theorem evaluateOver_unflushed (sink : Sink) (evaluate : Expr → Exec (Option Value))
    (execute : Stmt → Exec Signal) (expression : Expr) :
    evaluateOver { sink with flushRefusal := none } evaluate execute expression =
      evaluateOver sink evaluate execute expression := by
  cases expression with
  | call callee arguments line => simp only [evaluateOver, call, printAll_unflushed]
  | _ => rfl

private theorem execute_unflushed (sink : Sink) (steps : Nat) :
    evaluate { sink with flushRefusal := none } steps = evaluate sink steps ∧
      execute { sink with flushRefusal := none } steps = execute sink steps := by
  induction steps with
  | zero =>
    simp only [evaluate, execute]
    exact ⟨trivial, trivial⟩
  | succ steps ih =>
    simp only [evaluate, execute, ih.1, ih.2]
    exact ⟨funext (evaluateOver_unflushed sink _ _), trivial⟩

end Run

namespace Session

/-- Runs of like entries give like results and leave like sessions, unless the left session
lacks a function. -/
theorem run_like {session twin : Session} (sessions : session.Like likeness twin)
    {entry copy : String} (names : likeness.sameFunction entry copy) (sink : Sink) (steps : Nat) :
    (likeness.missing ∧ ∃ reason, reason.lacksFunction = true ∧
      (session.run { sink with flushRefusal := none } steps entry).1 = .error reason) ∨
    ResultLike likeness (session.run sink steps entry).1 (twin.run sink steps copy).1 ∧
      (session.run sink steps entry).2.Like likeness (twin.run sink steps copy).2 := by
  have found := sessions.globals.functions names
  simp only [run]
  generalize session.globals.function? entry = first at found
  generalize twin.globals.function? copy = second at found
  cases found with
  | absent => exact .inr ⟨.error (.failed ⟨.scope (.undefinedFunction names), .none⟩), sessions⟩
  | missing lacks => exact .inl ⟨lacks, _, rfl, rfl⟩
  | @found function counterpart functions =>
    have called := InStep.callFunction (InStep.steps sink steps).2 functions [] functions.lines
      ⟨Chain.root session.globals, session.console⟩ ⟨Chain.root twin.globals, twin.console⟩
      ⟨.root sessions.globals, sessions.consoles⟩
    simp only [(execute_unflushed sink steps).2]
    generalize callFunction _ function _ _ _ = outcome at called ⊢
    generalize callFunction _ counterpart _ _ _ = other at called ⊢
    cases called with
    | ok same machines =>
      obtain rfl := same
      exact .inr ⟨ResultLike.ok.flushed sink, machines.chains.current, machines.consoles⟩
    | interrupted reasons machines =>
      exact .inr ⟨(ResultLike.error reasons).flushed sink, machines.chains.current,
        machines.consoles⟩
    | lacking missing lacks =>
      refine .inl ⟨missing, _, lacks, ?_⟩
      exact flushed_of_none rfl _

end Session

end Scriptlet
