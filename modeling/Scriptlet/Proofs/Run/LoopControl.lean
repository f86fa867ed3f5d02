import Scriptlet.Proofs.Except
import Scriptlet.Proofs.Run.Padding
import Scriptlet.Proofs.Source.Parsed
import Scriptlet.Session

/-! Loops are left and continued from the inside only. A statement of the grammar that stands
in no loop does not end that way, so no call of a function that was read from a source does,
and the check that is made at the end of each call never fails. -/
namespace Scriptlet.Run

open Exec

/-- What an action can give as its result. -/
def Returns {α : Type} (holds : α → Prop) (action : Exec α) : Prop :=
  ∀ machine value after, action machine = .ok value after → holds value

namespace Returns

variable {α β : Type} {holds : α → Prop}

theorem pure {value : α} (fits : holds value) : Returns holds (pure value) := by
  intro machine result after reached
  cases reached
  exact fits

/-- The rest of an action may rely on what its first part gives. -/
theorem bindWith {action : Exec β} {given : β → Prop} {next : β → Exec α}
    (first : Returns given action) (each : ∀ value, given value → Returns holds (next value)) :
    Returns holds (action >>= next) := by
  intro machine result after reached
  rw [bind_apply] at reached
  cases found : action machine with
  | ok value middle =>
    rw [found] at reached
    exact each value (first _ _ _ found) _ _ _ reached
  | error reason middle =>
    rw [found] at reached
    cases reached

theorem bind {action : Exec β} {next : β → Exec α} (each : ∀ value, Returns holds (next value)) :
    Returns holds (action >>= next) :=
  bindWith (fun _ _ _ _ => trivial) fun value (_ : True) => each value

theorem inScope {action : Exec α} (inside : Returns holds action) :
    Returns holds (Exec.inScope action) := by
  intro machine result after reached
  rw [Exec.inScope] at reached
  split at reached
  · rename_i found
    cases reached
    exact inside _ _ _ found
  · cases reached

end Returns

/-- Signals with which a statement may end, in a loop or outside of one. -/
def Signal.Allowed (inLoop : Bool) (signal : Signal) : Prop :=
  signal.controlsLoop = true → inLoop = true

private theorem Signal.allowed_of_uncontrolled {inLoop : Bool} {signal : Signal}
    (other : signal.controlsLoop = false) : signal.Allowed inLoop := by
  intro controls
  rw [other] at controls
  cases controls

theorem Signal.Allowed.outside {signal : Signal} (allowed : signal.Allowed false) :
    signal ≠ .left ∧ signal ≠ .proceeded := by
  constructor
  · rintro rfl
    cases allowed rfl
  · rintro rfl
    cases allowed rfl

private theorem returns_sequence {execute : Stmt → Exec Signal} {inLoop : Bool}
    (statements : List Stmt)
    (each : ∀ statement ∈ statements, Returns (Signal.Allowed inLoop) (execute statement)) :
    Returns (Signal.Allowed inLoop) (sequence execute statements) := by
  induction statements with
  | nil => exact .pure (Signal.allowed_of_uncontrolled rfl)
  | cons first rest ih =>
    obtain ⟨head, tail⟩ := List.forall_mem_cons.mp each
    refine head.bindWith ?_
    intro signal allowed
    cases signal with
    | normal => exact ih tail
    | _ => exact .pure allowed

/-- A loop ends without leaving or continuing a loop around it. -/
theorem returns_repeatWhile (test : Exec Bool) (body : Exec Signal) (step : Exec Unit)
    (inLoop : Bool) (count : Nat) :
    Returns (Signal.Allowed inLoop) (repeatWhile test body step count) := by
  induction count with
  | zero =>
    intro machine signal after reached
    cases reached
  | succ count ih =>
    refine .bind fun holds => ?_
    split
    · refine .bind fun signal => ?_
      cases signal with
      | normal => exact ih
      | left => exact .pure (Signal.allowed_of_uncontrolled rfl)
      | proceeded => exact .bind fun _ => ih
      | returned value => exact .pure (Signal.allowed_of_uncontrolled rfl)
    · exact .pure (Signal.allowed_of_uncontrolled rfl)

/-- A statement of the grammar leaves or continues a loop only if it stands in one. -/
theorem returns_execute (sink : Sink) (steps : Nat) {statement : Stmt} {inLoop : Bool}
    (shaped : statement.Shaped inLoop) :
    Returns (Signal.Allowed inLoop) (execute sink steps statement) := by
  induction steps generalizing statement inLoop with
  | zero =>
    intro machine signal after reached
    cases reached
  | succ steps ih =>
    have normal : Returns (Signal.Allowed inLoop) (pure .normal) :=
      .pure (Signal.allowed_of_uncontrolled rfl)
    rw [execute]
    cases shaped with
    | block each =>
      exact .inScope (returns_sequence _ fun statement member => ih (each statement member))
    | evaluate => exact .bind fun _ => normal
    | declare => exact .bind fun _ => .bind fun _ => normal
    | returns => exact .bind fun _ => .pure (Signal.allowed_of_uncontrolled rfl)
    | @branch _ _ _ whenFalse _ _ _ first _ second =>
      refine .bind fun value => ?_
      split
      · exact ih first
      · cases whenFalse with
        | none => exact normal
        | some other => exact ih (second other rfl)
    | loop => exact returns_repeatWhile _ _ _ inLoop steps
    | leave => exact .pure fun _ => rfl
    | proceed => exact .pure fun _ => rfl
    | function =>
      -- A function that is declared inside of another fails, so its body is not asked.
      intro machine signal after reached
      cases reached

end Scriptlet.Run

namespace Scriptlet

/-- The step of a loop may run wherever the body may. -/
theorem Stmt.Shaped.increment? {inLoop stepped : Bool} {body step : Stmt}
    (shaped : body.Shaped inLoop) (present : Run.increment? stepped body = some step) :
    step.Shaped inLoop := by
  unfold Run.increment? at present
  split at present
  · cases shaped with
    | block each => exact each step (List.mem_of_getLast? present)
  · cases present

/-- The bodies of all functions in the scope have the shape of the grammar. -/
def Scope.Shaped (scope : Scope) : Prop :=
  ∀ entry ∈ scope.functions, ∀ statement ∈ entry.2.body, statement.Shaped false

def Chain.Shaped (chain : Chain) : Prop := ∀ scope ∈ chain.scopes, scope.Shaped

private theorem Scope.shaped_empty : Scope.empty.Shaped := by
  simp [Scope.Shaped, Scope.empty]

theorem Scope.Shaped.function? {scope : Scope} {name : String} {function : Function}
    (shaped : scope.Shaped) (found : scope.function? name = some function) :
    ∀ statement ∈ function.body, statement.Shaped false := by
  obtain ⟨front, back, same, _⟩ := List.lookup_eq_some_iff.mp found
  exact shaped (name, function) (by simp [same])

theorem Scope.functions_assign? {scope changed : Scope} {name : String} {value : Value}
    (success : scope.assign? name value = some changed) : changed.functions = scope.functions := by
  rw [Scope.assign?] at success
  split at success
  · cases success
  · cases success
    rfl

theorem Scope.functions_defineVariable {scope changed : Scope} {name : String}
    {value : Option Value} (success : scope.defineVariable name value = .ok changed) :
    changed.functions = scope.functions := by
  rw [Scope.defineVariable] at success
  split at success
  · cases success
  · cases success
    rfl

namespace Chain

/-- Assigning leaves all functions as they are. -/
theorem functions_assignIn? {name : String} {value : Value} {before after : List Scope}
    (success : assignIn? name value before = some after) :
    after.map Scope.functions = before.map Scope.functions := by
  induction before generalizing after with
  | nil => cases success
  | cons first rest ih =>
    rw [assignIn?] at success
    split at success
    · rename_i found
      cases success
      rw [List.map_cons, List.map_cons, Scope.functions_assign? found]
    · obtain ⟨others, found, rfl⟩ := Option.map_eq_some_iff.mp success
      rw [List.map_cons, List.map_cons, ih found]

/-- All functions in the scopes of a chain have a property. -/
def Binds (holds : Function → Prop) (chain : Chain) : Prop :=
  ∀ scope ∈ chain.scopes, ∀ entry ∈ scope.functions, holds entry.2

namespace Binds

variable {holds : Function → Prop} {chain changed : Chain} {name : String}

theorem iff_functions (chain : Chain) : chain.Binds holds ↔
    ∀ functions ∈ chain.scopes.map Scope.functions, ∀ entry ∈ functions, holds entry.2 := by
  simp [Binds]

theorem assign {value : Value} (binds : chain.Binds holds)
    (success : chain.assign name value = .ok changed) : changed.Binds holds := by
  rcases chain.assign_eq name value with ⟨other, same, found⟩ | ⟨missing, _⟩
  · cases success.symm.trans same
    rw [iff_functions, functions_assignIn? found, ← iff_functions]
    exact binds
  · rw [success] at missing
    cases missing

theorem define {value : Option Value} (binds : chain.Binds holds)
    (success : chain.defineVariable name value = .ok changed) : changed.Binds holds := by
  obtain ⟨current, found, rfl⟩ := Except.ok_of_map success
  rw [Binds, Chain.scopes, List.forall_mem_cons] at binds ⊢
  refine ⟨?_, binds.2⟩
  rw [Scope.functions_defineVariable found]
  exact binds.1

theorem pop (binds : chain.Binds holds) : chain.pop.Binds holds := by
  obtain ⟨current, outer⟩ := chain
  cases outer with
  | nil => exact binds
  | cons next outer => exact (List.forall_mem_cons.mp binds).2

theorem push (binds : chain.Binds holds) : chain.push.Binds holds := by
  refine List.forall_mem_cons.mpr ⟨?_, binds⟩
  rintro entry ⟨⟩

theorem lookupFunction {function : Function} (binds : chain.Binds holds)
    (success : chain.lookupFunction name = .ok function) : holds function := by
  rw [Chain.lookupFunction] at success
  split at success
  · cases success
  · rename_i found
    cases success
    obtain ⟨scope, member, found⟩ := List.exists_of_findSome?_eq_some found
    obtain ⟨front, back, same, _⟩ := List.lookup_eq_some_iff.mp found
    exact binds scope member (name, function) (by simp [same])

end Binds

private theorem shaped_iff (chain : Chain) : chain.Shaped ↔
    chain.Binds fun function => ∀ statement ∈ function.body, statement.Shaped false :=
  Iff.rfl

end Chain

namespace Run

open Exec

/-- A run over functions of the grammar, compared with itself: chains keep to such functions,
and no error says that a call left a loop around it. -/
def controlled : Correspondence where
  alike _ chain other := chain = other ∧ chain.Shaped
  errors error other := error = other ∧ error.cause.isEscape = false
  admits depth inLoop statement := depth ≠ 0 ∧ statement.Shaped inLoop
  ends inLoop signal := signal.Allowed inLoop
  push alike := ⟨congrArg Chain.push alike.1, ((Chain.shaped_iff _).mp alike.2).push⟩
  pop alike := ⟨congrArg Chain.pop alike.1, ((Chain.shaped_iff _).mp alike.2).pop⟩
  lookup name alike := congrArg (Chain.lookup · name) alike.1
  lookupFunction name alike := congrArg (Chain.lookupFunction · name) alike.1
  assign := by
    rintro depth chain _ name value ⟨rfl, shaped⟩
    cases success : chain.assign name value with
    | ok changed => exact ⟨rfl, ((Chain.shaped_iff _).mp shaped).assign success⟩
    | error fault => rfl
  define := by
    rintro depth chain _ name value ⟨rfl, shaped⟩
    cases success : chain.defineVariable name value with
    | ok changed => exact ⟨rfl, ((Chain.shaped_iff _).mp shaped).define success⟩
    | error fault => rfl
  located line same := ⟨congrArg (Located.withLine · line) same.1, same.2⟩
  raised _ other := ⟨rfl, other⟩
  escaped _ allowed controls := by cases allowed controls
  uncontrolled := Signal.allowed_of_uncontrolled
  callable alike found statement member :=
    ⟨Nat.succ_ne_zero _, ((Chain.shaped_iff _).mp alike.2).lookupFunction found statement member⟩
  block admitted statement member := by
    cases admitted.2 with
    | block each => exact ⟨Nat.succ_ne_zero _, each statement member⟩
  declare admitted := admitted.1
  whenTrue admitted := by
    cases admitted.2 with
    | branch test noDeclaration first => exact ⟨admitted.1, first⟩
  whenFalse admitted := by
    cases admitted.2 with
    | branch test noDeclaration first noOther second => exact ⟨admitted.1, second _ rfl⟩
  body admitted := by
    cases admitted.2 with
    | loop test noDeclaration nested => exact ⟨admitted.1, nested⟩
  increment admitted present := by
    cases admitted.2 with
    | loop test noDeclaration nested => exact ⟨admitted.1, nested.increment? present⟩
  leave admitted := by
    cases admitted.2
    exact fun _ => rfl
  proceed admitted := by
    cases admitted.2
    exact fun _ => rfl

end Run

namespace Session

open Scriptlet.Run

/-- Loading declarations of the grammar keeps to functions of the grammar, also where it stops
early. -/
theorem loadDeclarations_shaped (declarations : List Stmt) {scope : Scope} (shaped : scope.Shaped)
    (each : ∀ declaration ∈ declarations, declaration.Shaped false) :
    (loadDeclarations declarations scope).2.Shaped := by
  induction declarations generalizing scope with
  | nil => exact shaped
  | cons first rest ih =>
    obtain ⟨head, tail⟩ := List.forall_mem_cons.mp each
    cases head with
    | function few body =>
      rw [loadDeclarations]
      split
      · rename_i extended defined
        rw [Scope.defineFunction] at defined
        split at defined
        · cases defined
        · cases defined
          exact ih (List.forall_mem_cons.mpr ⟨body, shaped⟩) tail
      · exact shaped
    | _ => exact shaped

private theorem load_shaped {session : Session} {program : Program}
    (shaped : session.globals.Shaped)
    (parsed : program.Parsed) : (session.load program).2.globals.Shaped :=
  loadDeclarations_shaped program.declarations shaped parsed.shaped

/-- Flushing fails like the call did, or because the sink refuses. -/
theorem flushed_failed {sink : Sink} {result : Except Interruption (Option Value)} {error : Error}
    (failed : flushed sink result = .error (.failed error)) :
    result = .error (.failed error) ∨
      ∃ reason, sink.flushRefusal = some reason ∧ error = .unplaced (.writeRefused reason) := by
  unfold flushed at failed
  split at failed
  · cases failed
  · rename_i refused
    cases failed
    exact .inr ⟨_, refused, rfl⟩
  · exact .inl failed

/-- A run over functions of the grammar never fails because a loop is left from outside of it,
and what it leaves keeps to functions of the grammar. -/
theorem run_shaped {session : Session} (shaped : session.globals.Shaped) (sink : Sink)
    (steps : Nat) (entry : String) :
    (∀ error, (session.run sink steps entry).1 = .error (.failed error) →
        error.cause.isEscape = false) ∧
      ((session.run sink steps entry).1 ≠ .error .unfinished →
        (session.run sink steps entry).2.globals.Shaped) := by
  rw [run]
  cases found : session.globals.function? entry with
  | none =>
    refine ⟨?_, fun _ => shaped⟩
    rintro _ ⟨⟩
    rfl
  | some function =>
    have root : (Chain.root session.globals).Shaped := by
      rintro scope (_ | ⟨_, ⟨⟩⟩)
      exact shaped
    -- The run is compared with itself: what matters is that its outcome matches at all.
    have executes := (controlled.refines_steps sink (Nat.le_refl steps)).2
    have matched := Correspondence.refines_callFunction executes function [] function.line
      (fun statement member => ⟨Nat.succ_ne_zero 1, shaped.function? found statement member⟩)
      ⟨Chain.root session.globals, session.console⟩ _ ⟨⟨rfl, root⟩, rfl⟩
    simp only
    generalize callFunction _ _ _ _ _ = outcome at matched
    cases matched with
    | unfinished => exact ⟨by rintro _ ⟨⟩, fun ended => absurd rfl ended⟩
    | ok _ machines =>
      refine ⟨fun error failed => ?_, fun _ => machines.1.2 _ (List.mem_cons_self ..)⟩
      rcases flushed_failed failed with ⟨⟨⟩⟩ | ⟨reason, refused, rfl⟩
      rfl
    | failed same machines =>
      refine ⟨fun error failed => ?_, fun _ => machines.1.2 _ (List.mem_cons_self ..)⟩
      rcases flushed_failed failed with ⟨⟨⟩⟩ | ⟨reason, refused, rfl⟩
      · exact same.2
      · rfl

/-- Sessions in which programs that were read are loaded, completely or up to a declaration
that cannot be loaded, and functions are run to the end, successfully or not. -/
inductive Reachable : Session → Prop where
  | empty : Reachable empty
  | load {session : Session} {program : Program} (before : Reachable session)
      (parsed : program.Parsed) : Reachable (session.load program).2
  | run {session : Session} {sink : Sink} {steps : Nat} {entry : String}
      (before : Reachable session)
      (ended : (session.run sink steps entry).1 ≠ .error .unfinished) :
      Reachable (session.run sink steps entry).2

theorem Reachable.shaped {session : Session} (reachable : Reachable session) :
    session.globals.Shaped := by
  induction reachable with
  | empty => exact Scope.shaped_empty
  | load before parsed ih => exact load_shaped ih parsed
  | run before ended ih => exact (run_shaped ih _ _ _).2 ended

/-- Loop control never leaves a function that was read: no run ends with the error that says
so, no body of a function of the session ends by leaving or continuing a loop, and neither does
any declaration or statement that is accepted outside of loops. -/
theorem run_containsLoopControl {session : Session} (reachable : Reachable session) :
    (∀ sink steps entry error, (session.run sink steps entry).1 = .error (.failed error) →
      ∀ function, error.cause ≠ .escapedLoopControl function) ∧
    (∀ name function, session.globals.function? name = some function →
      ∀ sink steps machine signal after,
        sequence (execute sink steps) function.body machine = .ok signal after →
          signal ≠ .left ∧ signal ≠ .proceeded) ∧
    ∀ depth (stream rest : Grammar.Stream) statement, stream.WellFormed →
      Grammar.declarationUpTo depth false stream = .ok (statement, rest) ∨
        Grammar.statementUpTo depth false stream = .ok (statement, rest) →
      ∀ sink steps machine signal after, execute sink steps statement machine = .ok signal after →
        signal ≠ .left ∧ signal ≠ .proceeded := by
  refine ⟨?_, ?_, ?_⟩
  · rintro sink steps entry error failed function same
    have other := (run_shaped reachable.shaped sink steps entry).1 error failed
    rw [same] at other
    cases other
  · intro name function found sink steps machine signal after ended
    have each := reachable.shaped.function? found
    have returns := returns_sequence function.body
      fun statement member => returns_execute sink steps (each statement member)
    exact (returns machine signal after ended).outside
  · intro depth stream rest statement proper accepted sink steps machine signal after ended
    have shaped : statement.Shaped false := by
      rcases accepted with accepted | accepted
      · exact ((Grammar.upTo_reads depth).1 _ _ _ _ proper accepted).shaped
      · exact ((Grammar.upTo_reads depth).2 _ _ _ _ proper accepted).shaped
    exact (returns_execute sink steps shaped machine signal after ended).outside

/-- A function with a loop that is left at once. -/
def leavingSource : NamedSource := ⟨"main", "func f(): int { while (true) break; return 1; }"⟩

theorem run_leavingSource :
    ∃ program, leavingSource.program = .ok program ∧
      ((empty.load program).2.globals.function? "f").isSome = true ∧
      ∀ sink steps entry error,
        ((empty.load program).2.run sink steps entry).1 = .error (.failed error) →
          ∀ function, error.cause ≠ .escapedLoopControl function := by
  have read : leavingSource.program.toOption.any
      (fun program => ((empty.load program).2.globals.function? "f").isSome) = true := by
    decide +kernel
  cases parsed : leavingSource.program with
  | error error =>
    rw [parsed] at read
    cases read
  | ok program =>
    rw [parsed] at read
    exact ⟨program, rfl, read, (run_containsLoopControl (.load .empty (.source parsed))).1⟩

end Session

end Scriptlet
