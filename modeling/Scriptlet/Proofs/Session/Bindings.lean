import Mathlib.Data.List.Nodup
import Scriptlet.Proofs.Session.Annotations

/-! A run depends on the functions that it finds, and not on how they came there. In whatever
order functions are loaded, and in however many loads, runs are the same; and functions that a
run does not want make no difference to it. -/
namespace Scriptlet

open Run

/-- The program that declares these functions. -/
def Program.ofFunctions (functions : List Function) : Program :=
  ⟨functions.map Function.declaration⟩

private theorem Function.declaration_injective : Function.Injective Function.declaration := by
  intro function other same
  cases function
  cases other
  simpa only [declaration, Stmt.function.injEq, mk.injEq] using same

/-- Among functions of different names, one is found by its name. -/
theorem Function.find?_name {functions : List Function}
    (distinct : (functions.map Function.name).Nodup) {name : String} {function : Function} :
    functions.find? (fun one => one.name = name) = some function ↔
      function ∈ functions ∧ function.name = name := by
  constructor
  · intro found
    exact ⟨List.mem_of_find?_eq_some found, by simpa using List.find?_some found⟩
  · rintro ⟨member, rfl⟩
    have present : (functions.find? fun one => one.name = function.name).isSome :=
      List.find?_isSome.mpr ⟨function, member, by simp⟩
    obtain ⟨other, found⟩ := Option.isSome_iff_exists.mp present
    have same : other.name = function.name := by simpa using List.find?_some found
    rw [found, List.inj_on_of_nodup_map distinct (List.mem_of_find?_eq_some found) member same]

namespace Session

/-- Load programs one after the other, up to the first that is refused. -/
def loadAll : List Program → Session → Except LoadError Unit × Session
  | [], session => (.ok (), session)
  | program :: rest, session =>
    match session.load program with
    | (.ok (), after) => loadAll rest after
    | (.error error, after) => (.error error, after)

private theorem loadDeclarations_append (front back : List Stmt) (scope : Scope) :
    loadDeclarations (front ++ back) scope =
      match loadDeclarations front scope with
      | (.ok (), after) => loadDeclarations back after
      | (.error error, after) => (.error error, after) := by
  fun_induction loadDeclarations front scope with
  | case1 => rfl
  | case2 name parameters result body bodyLine line rest scope extended defined ih =>
    simp only [List.cons_append, loadDeclarations, defined]
    exact ih
  | case3 name parameters result body bodyLine line rest scope fault taken =>
    simp only [List.cons_append, loadDeclarations, taken]
  | case4 scope other rest notFunction =>
    rw [List.cons_append, loadDeclarations]
    exact notFunction

/-- Loading programs one after the other is loading all their declarations at once. -/
theorem loadAll_eq_load (programs : List Program) (session : Session) :
    session.loadAll programs = session.load ⟨programs.flatMap Program.declarations⟩ := by
  induction programs generalizing session with
  | nil => rfl
  | cons program rest ih =>
    simp only [loadAll, load, List.flatMap_cons, loadDeclarations_append]
    generalize loadDeclarations program.declarations session.globals = loading
    rcases loading with ⟨_ | _, after⟩
    · rfl
    · exact ih _

/-- Functions of different names are all loaded, and found by their names. -/
theorem load_distinct {functions : List Function}
    (distinct : (functions.map Function.name).Nodup) :
    (empty.load (.ofFunctions functions)).1 = .ok () ∧
      ∀ name, (empty.load (.ofFunctions functions)).2.globals.function? name =
        functions.find? fun function => function.name = name := by
  obtain ⟨accepted, rest, loads, ended⟩ := empty.load_upTo (.ofFunctions functions)
  have bound (name : String) :
      (empty.load (.ofFunctions functions)).2.globals.function? name =
        accepted.find? fun function => function.name = name := by
    rw [loads.bound]
    rfl
  obtain ⟨front, back, rfl, first, second⟩ := List.map_eq_append_iff.mp loads.parts
  obtain rfl := (List.map_injective_iff.mpr Function.declaration_injective) first
  -- A function that was refused would have the name of one that was loaded before.
  cases back with
  | nil =>
    rw [List.append_nil] at ended bound ⊢
    exact ⟨ended.mpr second.symm, bound⟩
  | cons refused others =>
    rw [List.map_cons] at second
    have taken := loads.refused refused.declaration (by rw [← second]; rfl) refused rfl
    rw [bound] at taken
    obtain ⟨function, found⟩ := Option.ne_none_iff_exists'.mp taken
    have same : function.name = refused.name := by simpa using List.find?_some found
    rw [List.map_append, List.map_cons] at distinct
    have apart := (List.nodup_append.mp distinct).2.2
    exact absurd same (apart _ (List.mem_map_of_mem (List.mem_of_find?_eq_some found)) _
      (List.mem_cons_self ..))

/-- What is loaded first is found also when more is loaded with it. -/
theorem load_kept {functions more : List Function}
    (distinct : ((functions ++ more).map Function.name).Nodup) {name : String}
    {function : Function}
    (found : (empty.load (.ofFunctions functions)).2.globals.function? name = some function) :
    (empty.load (.ofFunctions (functions ++ more))).2.globals.function? name = some function := by
  have apart : (functions.map Function.name).Nodup := by
    rw [List.map_append] at distinct
    exact (List.nodup_append.mp distinct).1
  rw [(load_distinct apart).2] at found
  rw [(load_distinct distinct).2, List.find?_append, found, Option.some_or]

/-- Functions of different names that are loaded in parts, in whatever order. -/
theorem loadAll_distinct {functions : List Function}
    (distinct : (functions.map Function.name).Nodup) {parts : List (List Function)}
    (same : parts.flatten.Perm functions) :
    (empty.loadAll (parts.map Program.ofFunctions)).1 = .ok () ∧
      (∀ name, (empty.loadAll (parts.map Program.ofFunctions)).2.globals.function? name =
        functions.find? fun function => function.name = name) ∧
      (empty.loadAll (parts.map Program.ofFunctions)).2.console = .empty ∧
      (empty.loadAll (parts.map Program.ofFunctions)).2.globals.slots = [] := by
  have whole : (parts.map Program.ofFunctions).flatMap Program.declarations =
      parts.flatten.map Function.declaration := by
    rw [List.flatMap_map, List.map_flatten, List.flatMap_def]
    rfl
  have apart : (parts.flatten.map Function.name).Nodup := (same.map _).nodup_iff.mpr distinct
  obtain ⟨loaded, bound⟩ := load_distinct apart
  obtain ⟨_, _, loads, _⟩ := empty.load_upTo (.ofFunctions parts.flatten)
  rw [loadAll_eq_load, whole]
  refine ⟨loaded, fun name => ?_, rfl, loads.slots⟩
  rw [Program.ofFunctions] at bound
  rw [bound]
  ext function
  rw [Function.find?_name apart, Function.find?_name distinct, same.mem_iff]

/-- Sessions with the same variables and the same output, of which the right one has the
functions of the left one and, if some may be missing, others besides. -/
theorem like_of_functions (missing : Prop) {session other : Session}
    (slots : session.globals.slots = other.globals.slots)
    (consoles : session.console = other.console)
    (bound : ∀ name function, session.globals.function? name = some function →
      other.globals.function? name = some function)
    (absent : ¬ missing → ∀ name, session.globals.function? name = none →
      other.globals.function? name = none) :
    session.Like (.upToLines id missing) other := by
  refine ⟨⟨?_, ?_⟩, consoles⟩
  · rw [slots]
    exact .self _
  · intro name _ same
    obtain rfl : name = _ := same
    cases found : session.globals.function? name with
    | some function =>
      rw [bound name function found]
      exact .found function.like_self
    | none =>
      by_cases lacks : missing
      · cases other.globals.function? name with
        | none => exact .absent
        | some function => exact .missing lacks
      · rw [absent lacks name found]
        exact .absent

/-- A run depends only on the functions that it finds. Functions of different names are all
loaded, in whatever order and in however many loads, and runs give the same result and output.
Where a session has all functions of another one and more, a run gives there what it gives in the
other one, unless its call fails for want of a function. A sink that refuses to be flushed hides
how the call ended, so this is asked of a run with the same sink without that refusal. -/
theorem run_bindings :
    (∀ (functions : List Function) (parts others : List (List Function)),
      (functions.map Function.name).Nodup → parts.flatten.Perm functions →
      others.flatten.Perm functions →
        (empty.loadAll (parts.map Program.ofFunctions)).1 = .ok () ∧
        ∀ sink steps entry,
          ((empty.loadAll (parts.map Program.ofFunctions)).2.run sink steps entry).1 =
            ((empty.loadAll (others.map Program.ofFunctions)).2.run sink steps entry).1 ∧
          ((empty.loadAll (parts.map Program.ofFunctions)).2.run sink steps entry).2.console =
            ((empty.loadAll (others.map Program.ofFunctions)).2.run sink steps entry).2.console) ∧
    ∀ session other : Session, session.globals.slots = other.globals.slots →
      session.console = other.console →
      (∀ name function, session.globals.function? name = some function →
        other.globals.function? name = some function) →
      ∀ sink steps entry,
        (∀ name line, (session.run { sink with flushRefusal := none } steps entry).1 ≠
          .error (.failed ⟨.scope (.undefinedFunction name), line⟩)) →
        (other.run sink steps entry).1 = (session.run sink steps entry).1 ∧
        (other.run sink steps entry).2.console = (session.run sink steps entry).2.console := by
  constructor
  · intro functions parts others distinct same also
    obtain ⟨loaded, bound, console, slots⟩ := loadAll_distinct distinct same
    obtain ⟨_, otherBound, otherConsole, otherSlots⟩ := loadAll_distinct distinct also
    refine ⟨loaded, fun sink steps entry => ?_⟩
    have sessions := like_of_functions False (slots.trans otherSlots.symm)
      (console.trans otherConsole.symm)
      (fun name function found => by rw [otherBound, ← bound, found])
      (fun _ name found => by rw [otherBound, ← bound, found])
    obtain ⟨results, consoles⟩ := run_upToLines sessions sink steps entry
    exact ⟨results.eq, consoles⟩
  · intro session other slots consoles bound sink steps entry wanted
    have sessions := like_of_functions True slots consoles bound
      (fun whole => absurd trivial whole)
    rcases run_like sessions (rfl : entry = entry) sink steps with
      ⟨_, reason, lacks, failed⟩ | ⟨results, after⟩
    · obtain ⟨name, line, rfl⟩ := Interruption.exists_of_lacksFunction lacks
      exact absurd failed (wanted name line)
    · exact ⟨results.eq.symm, after.consoles.symm⟩

/-- A call by name that prints one text. -/
def printing (text : String) (line : Nat) : Stmt :=
  .evaluate (.call (.identifier "print" line) [.literal (.string text) line] line) line

/-- A function that prints and then calls another one. -/
def caller : Function :=
  ⟨"main", [], ⟨"void", 0⟩, [printing "a" 1, .evaluate (.call (.identifier "g" 1) [] 1) 1], 1, 1⟩

/-- The function that is called. -/
def callee : Function := ⟨"g", [], ⟨"void", 0⟩, [printing "b" 2], 2, 2⟩

/-- A sink that takes everything and cannot be flushed. -/
def unflushable : Sink := ⟨fun _ _ => none, some "flush refused"⟩

/-- Where the sink cannot be flushed, a run does not say that it wants a function, and with that
function it prints more. -/
theorem unflushable_hidesWant :
    (∀ name function,
      (empty.load (.ofFunctions [caller])).2.globals.function? name = some function →
      (empty.load (.ofFunctions ([caller] ++ [callee]))).2.globals.function? name = some function) ∧
    ((empty.load (.ofFunctions [caller])).2.run unflushable 6 "main").1 =
      .error (.failed ⟨.writeRefused "flush refused", none⟩) ∧
    ((empty.load (.ofFunctions [caller])).2.run unflushable 6 "main").2.output = "a" ∧
    ((empty.load (.ofFunctions ([caller] ++ [callee]))).2.run unflushable 6 "main").2.output =
      "ab" :=
  ⟨fun _ _ => load_kept (by decide), rfl, by decide +kernel, by decide +kernel⟩

/-- Two functions loaded in either order; and one that a run does not want. -/
theorem callee_unwanted :
    ((empty.loadAll ([[caller], [callee]].map .ofFunctions)).2.run unflushable 6 "main").1 =
      ((empty.loadAll ([[callee, caller]].map .ofFunctions)).2.run unflushable 6 "main").1 ∧
    ((empty.load (.ofFunctions [callee])).2.run .accepting 6 "g").1 = .ok none ∧
    ((empty.load (.ofFunctions ([callee] ++ [caller]))).2.run .accepting 6 "g").1 =
      ((empty.load (.ofFunctions [callee])).2.run .accepting 6 "g").1 := by
  have ordered := (run_bindings.1 [caller, callee] [[caller], [callee]] [[callee, caller]]
    (by decide) (.refl _) (.swap _ _ _)).2
  have finished : ((empty.load (.ofFunctions [callee])).2.run .accepting 6 "g").1 = .ok none := rfl
  have unwanted := run_bindings.2 (empty.load (.ofFunctions [callee])).2
    (empty.load (.ofFunctions ([callee] ++ [caller]))).2 rfl rfl
    (fun _ _ => load_kept (by decide)) .accepting 6 "g"
    (fun _ _ lacks => by cases finished.symm.trans lacks)
  exact ⟨(ordered unflushable 6 "main").1, finished, unwanted.1⟩

end Session

end Scriptlet
