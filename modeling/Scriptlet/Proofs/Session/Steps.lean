import Scriptlet.Proofs.Run.Scoping

/-! Sessions step by step. Whatever is loaded and run, in whatever order and with whatever
failing, the global scope holds functions only, and runs leave it as it is. -/
namespace Scriptlet

open Run

namespace Scope

theorem defineFunction_eq_ok {scope extended : Scope} {name : String} {function : Function} :
    scope.defineFunction name function = .ok extended ↔ scope.function? name = none ∧
      extended = { scope with functions := (name, function) :: scope.functions } := by
  rw [defineFunction]
  cases scope.function? name <;> simp [eq_comm]

theorem slots_eq_nil {scope : Scope} (none : scope.names = ∅) : scope.slots = [] := by
  obtain ⟨slots, functions⟩ := scope
  cases slots with
  | nil => rfl
  | cons entry rest =>
    have defined : entry.1 ∈ names ⟨entry :: rest, functions⟩ := by simp [names, slot?]
    rw [none] at defined
    cases defined

/-- A scope without variables stays as it is where nothing is declared. -/
theorem Keeps.eq_of_names {before after : Scope} (keeps : before.Keeps ∅ after)
    (none : before.names = ∅) : after = before := by
  have first := slots_eq_nil none
  have second := slots_eq_nil (keeps.names_eq.trans none)
  have functions := keeps.functions
  cases before
  cases after
  simp_all

end Scope

def Function.declaration (function : Function) : Stmt :=
  .function function.name function.parameters function.result function.body function.bodyLine
    function.line

namespace Session

/-- Loading declarations into a scope accepts functions with names that are free and different,
up to the first declaration that is none of a function with a free name. These functions are
bound, and all else is as it was. -/
structure LoadsUpTo (declarations : List Stmt) (before after : Scope) (accepted : List Function)
    (rest : List Stmt) : Prop where
  parts : declarations = accepted.map Function.declaration ++ rest
  free : ∀ function ∈ accepted, before.function? function.name = none
  distinct : (accepted.map Function.name).Nodup
  bound (name : String) : after.function? name =
    (before.function? name).or (accepted.find? fun function => function.name = name)
  refused : ∀ declaration ∈ rest.head?, ∀ function : Function,
    declaration = function.declaration → after.function? function.name ≠ none
  slots : after.slots = before.slots

theorem LoadsUpTo.stop {declarations : List Stmt} {scope : Scope}
    (refused : ∀ declaration ∈ declarations.head?, ∀ function : Function,
      declaration = function.declaration → scope.function? function.name ≠ none) :
    LoadsUpTo declarations scope scope [] declarations :=
  ⟨rfl, by simp, by simp, by simp, refused, rfl⟩

theorem LoadsUpTo.step {declarations : List Stmt} {before extended after : Scope}
    (function : Function) {accepted : List Function} {rest : List Stmt}
    (defined : before.defineFunction function.name function = .ok extended)
    (loads : LoadsUpTo declarations extended after accepted rest) :
    LoadsUpTo (function.declaration :: declarations) before after (function :: accepted) rest := by
  obtain ⟨free, rfl⟩ := Scope.defineFunction_eq_ok.mp defined
  have added (name : String) : Scope.function?
      ⟨before.slots, (function.name, function) :: before.functions⟩ name =
      if name = function.name then some function else before.function? name :=
    Scope.lookup_cons ..
  have later : ∀ other ∈ accepted, other.name ≠ function.name ∧
      before.function? other.name = none := by
    intro other member
    have absent := loads.free other member
    rw [added] at absent
    split at absent
    · cases absent
    · exact ⟨‹_›, absent⟩
  refine ⟨?_, ?_, ?_, ?_, loads.refused, ?_⟩
  · rw [loads.parts]
    rfl
  · exact List.forall_mem_cons.mpr ⟨free, fun other member => (later other member).2⟩
  · refine List.nodup_cons.mpr ⟨?_, loads.distinct⟩
    intro again
    obtain ⟨other, member, same⟩ := List.mem_map.mp again
    exact (later other member).1 same
  · intro name
    rw [loads.bound, added, List.find?_cons]
    by_cases same : name = function.name
    · simp [same, free]
    · simp [same, Ne.symm same]
  · exact loads.slots

private theorem loadDeclarations_upTo (declarations : List Stmt) (scope : Scope) :
    ∃ accepted rest,
      LoadsUpTo declarations scope (loadDeclarations declarations scope).2 accepted rest ∧
      ((loadDeclarations declarations scope).1 = .ok () ↔ rest = []) := by
  fun_induction loadDeclarations declarations scope with
  | case1 => exact ⟨[], [], .stop (by simp), by simp⟩
  | case2 name parameters result body bodyLine line rest scope extended defined ih =>
    obtain ⟨accepted, left, loads, ended⟩ := ih
    let function : Function := ⟨name, parameters, result, body, bodyLine, line⟩
    exact ⟨function :: accepted, left, .step function defined loads, ended⟩
  | case3 name parameters result body bodyLine line rest scope fault taken =>
    refine ⟨[], _, .stop ?_, by simp⟩
    rintro _ ⟨⟩ function same
    cases same
    intro free
    rw [Scope.defineFunction, free] at taken
    cases taken
  | case4 scope other rest notFunction =>
    refine ⟨[], _, .stop ?_, by simp⟩
    rintro _ ⟨⟩ function rfl
    exact absurd rfl (notFunction _ _ _ _ _ _)

theorem load_upTo (program : Program) (session : Session) :
    ∃ accepted rest, LoadsUpTo program.declarations session.globals
        (session.load program).2.globals accepted rest ∧
      ((session.load program).1 = .ok () ↔ rest = []) :=
  loadDeclarations_upTo program.declarations session.globals

/-- What is done with a session. -/
inductive Step where
  | load (program : Program)
  | run (entry : String)
  | loadFile (files : Source.FileSystem) (path : String)
  | runFile (files : Source.FileSystem) (path entry : String)

/-- A step that comes to an end, successfully or not. -/
inductive Takes (sink : Sink) : Step → Session → Session → Prop where
  | load {program : Program} {session : Session} :
      Takes sink (.load program) session (session.load program).2
  | run {entry : String} {session : Session} {count : Nat}
      (ended : (session.run sink count entry).1 ≠ .error .unfinished) :
      Takes sink (.run entry) session (session.run sink count entry).2
  | loadFile {files : Source.FileSystem} {path : String} {session : Session} :
      Takes sink (.loadFile files path) session (session.loadFile files path).2
  | runFile {files : Source.FileSystem} {path entry : String} {session : Session} {count : Nat}
      (ended : (session.runFile files sink count path entry).1 ≠
        .error (.interrupted .unfinished)) :
      Takes sink (.runFile files path entry) session
        (session.runFile files sink count path entry).2

/-- Steps one after the other. -/
inductive Reaches (sink : Sink) : List Step → Session → Session → Prop where
  | nil {session : Session} : Reaches sink [] session session
  | cons {step : Step} {rest : List Step} {before middle after : Session}
      (first : Takes sink step before middle) (others : Reaches sink rest middle after) :
      Reaches sink (step :: rest) before after

theorem Reaches.snoc {sink : Sink} {steps : List Step} {step : Step} {before middle after : Session}
    (reaches : Reaches sink steps before middle) (last : Takes sink step middle after) :
    Reaches sink (steps ++ [step]) before after := by
  induction reaches with
  | nil => exact .cons last .nil
  | cons first _ ih => exact .cons first (ih last)

section Files

variable {files : Source.FileSystem} {path : String} (session : Session)

/-- A file that cannot be read changes nothing. -/
theorem loadFile_of_error {error : CompileError} (failed : Source.load files path = .error error) :
    session.loadFile files path = (.error error, session) := by
  rw [loadFile, failed]

private theorem loadFile_of_ok {loaded : Source.Loaded}
    (read : Source.load files path = .ok loaded) : session.loadFile files path =
      match session.load loaded.program with
      | (.ok (), after) => (.ok loaded.warnings, after)
      | (.error error, after) => (.error (.load error), after) := by
  simp only [loadFile, read]
  generalize session.load loaded.program = loading
  rcases loading with ⟨_ | _, _⟩ <;> rfl

theorem snd_loadFile_of_ok {loaded : Source.Loaded} (read : Source.load files path = .ok loaded) :
    (session.loadFile files path).2 = (session.load loaded.program).2 := by
  rw [session.loadFile_of_ok read]
  generalize session.load loaded.program = loading
  rcases loading with ⟨_ | _, _⟩ <;> rfl

theorem runFile_of_error {error : CompileError} (failed : Source.load files path = .error error)
    (sink : Sink) (count : Nat) (entry : String) :
    session.runFile files sink count path entry = (.error (.compile error), session) := by
  rw [runFile, session.loadFile_of_error failed]

/-- Running a file is loading its program and, if that succeeds, a run. -/
theorem runFile_of_ok {loaded : Source.Loaded} (read : Source.load files path = .ok loaded)
    (sink : Sink) (count : Nat) (entry : String) :
    session.runFile files sink count path entry =
      match session.load loaded.program with
      | (.ok (), after) => ((after.run sink count entry).1.mapError .interrupted,
          (after.run sink count entry).2)
      | (.error error, after) => (.error (.compile (.load error)), after) := by
  rw [runFile, session.loadFile_of_ok read]
  generalize session.load loaded.program = loading
  rcases loading with ⟨_ | _, _⟩ <;> rfl

end Files

/-- A relation between the session before and the session after, which holds for each load and
each run and can be carried on from one to the next. -/
structure Lasting (sink : Sink) (related : Session → Session → Prop) : Prop where
  refl (session : Session) : related session session
  trans {first second third : Session} : related first second → related second third →
    related first third
  load (session : Session) (program : Program) : related session (session.load program).2
  run (session : Session) (count : Nat) (entry : String) :
    related session (session.run sink count entry).2

namespace Lasting

variable {sink : Sink} {related : Session → Session → Prop} (lasting : Lasting sink related)
include lasting

theorem takes {step : Step} {before after : Session} (takes : Takes sink step before after) :
    related before after := by
  cases takes with
  | load => exact lasting.load _ _
  | run => exact lasting.run _ _ _
  | @loadFile files path =>
    cases read : Source.load files path with
    | error error =>
      rw [before.loadFile_of_error read]
      exact lasting.refl before
    | ok loaded =>
      rw [before.snd_loadFile_of_ok read]
      exact lasting.load before loaded.program
  | @runFile files path entry _ count =>
    cases read : Source.load files path with
    | error error =>
      rw [before.runFile_of_error read]
      exact lasting.refl before
    | ok loaded =>
      have loads := lasting.load before loaded.program
      rw [before.runFile_of_ok read]
      generalize before.load loaded.program = loading at loads ⊢
      rcases loading with ⟨_ | _, middle⟩
      · exact loads
      · exact lasting.trans loads (lasting.run middle count entry)

theorem reaches {steps : List Step} {before after : Session}
    (reaches : Reaches sink steps before after) : related before after := by
  induction reaches with
  | nil => exact lasting.refl _
  | cons first _ ih => exact lasting.trans (lasting.takes first) ih

end Lasting

theorem run_keeps (session : Session) (sink : Sink) (count : Nat) (entry : String) :
    session.globals.Keeps ∅ (session.run sink count entry).2.globals := by
  rw [run]
  cases session.globals.function? entry with
  | none => exact .refl _
  | some function =>
    have called := Discipline.callFunction (executes_scoped sink count) function [] function.line
    have keeps := called (fun _ => sink) ⟨Chain.root session.globals, session.console⟩
    simp only at keeps ⊢
    generalize callFunction _ _ _ _ _ = outcome at keeps ⊢
    cases outcome <;> exact keeps.current

private theorem lasting_names (sink : Sink) :
    Lasting sink fun before after => before.globals.names = ∅ → after.globals.names = ∅ where
  refl _ none := none
  trans first second none := second (first none)
  load session program none := by
    obtain ⟨_, _, loads, _⟩ := session.load_upTo program
    simpa [Scope.names, Scope.slot?, loads.slots] using none
  run session count entry none := (session.run_keeps sink count entry).names_eq.trans none

/-- The global scope never holds a variable. -/
theorem Reaches.names {sink : Sink} {steps : List Step} {session : Session}
    (reached : Reaches sink steps .empty session) : session.globals.names = ∅ :=
  (lasting_names sink).reaches reached (by simp [empty, Scope.empty, Scope.names, Scope.slot?])

/-- A run leaves the global scope of a session as it is. -/
theorem Reaches.globals_run {sink : Sink} {steps : List Step} {session : Session}
    (reached : Reaches sink steps .empty session) (count : Nat) (entry : String) :
    (session.run sink count entry).2.globals = session.globals :=
  (session.run_keeps sink count entry).eq_of_names reached.names

/-- Whether it succeeds or fails, evaluating an expression keeps all scopes: their variables and
their functions are the same, and what has a value still has one. Executing a statement adds to
the current scope what the statement declares there, which for a statement that was read is its
own name, if it is a declaration. Blocks and calls add nothing, so that the same names are
visible behind them as in front. The global scope of a session never holds a variable, and runs
do not change it. -/
theorem execution_keepsScopes :
    (∀ sink steps expression (machine : Machine),
      machine.chain.Keeps ∅ (Outcome.chain (evaluate sink steps expression machine))) ∧
    (∀ sink steps statement (machine : Machine),
      machine.chain.Keeps statement.declared
        (Outcome.chain (execute sink steps statement machine))) ∧
    (∀ program : Program, program.Parsed → ∀ declaration ∈ program.declarations,
      ∀ statement : Stmt, statement.Within declaration → ∀ name ∈ statement.declared,
        ∃ type initializer line, statement = .declare name type initializer line) ∧
    (∀ statements line, (Stmt.block statements line).declared = ∅) ∧
    (∀ sink steps function values line (machine : Machine), machine.chain.Keeps ∅
      (Outcome.chain (callFunction (execute sink steps) function values line machine))) ∧
    (∀ before after : Chain, before.Keeps ∅ after → ∀ name,
      after.lookup name = .error (.undefinedVariable name) ↔
        before.lookup name = .error (.undefinedVariable name)) ∧
    ∀ sink steps session, Reaches sink steps .empty session →
      session.globals.names = ∅ ∧
        ∀ count entry, (session.run sink count entry).2.globals = session.globals := by
  refine ⟨?_, ?_, ?_, ?_, ?_, ?_, ?_⟩
  · intro sink steps expression
    exact evaluates_scoped sink steps expression fun _ => sink
  · intro sink steps statement
    exact executes_scoped sink steps statement fun _ => sink
  · intro program parsed declaration member statement inside name declares
    obtain ⟨_, shaped⟩ := (parsed.shaped declaration member).within inside
    exact shaped.eq_declare declares
  · intro statements line
    exact Set.eq_empty_of_forall_notMem fun name declares => by cases declares
  · intro sink steps function values line
    exact Discipline.callFunction (executes_scoped sink steps) function values line fun _ => sink
  · intro before after keeps
    exact keeps.undefined_iff
  · intro sink steps session reached
    exact ⟨reached.names, reached.globals_run⟩

end Session

end Scriptlet
