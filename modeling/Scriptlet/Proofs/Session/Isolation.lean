import Scriptlet.Proofs.Session.Delivery
import Scriptlet.Proofs.Session.Steps

/-! What lasts in a session. Steps add to the output and to the functions and never take back,
and what a run gives depends on the functions alone. -/
namespace Scriptlet

open Run

/-- Scopes with the same variables that bind the same functions, in whatever order. -/
structure Scope.Alike (scope other : Scope) : Prop where
  slots : scope.slots = other.slots
  functions (name : String) : scope.function? name = other.function? name

namespace Scope

variable {scope other : Scope}

theorem Alike.refl (scope : Scope) : scope.Alike scope := ⟨rfl, fun _ => rfl⟩

theorem Alike.slot? (alike : scope.Alike other) (name : String) :
    scope.slot? name = other.slot? name := by
  rw [Scope.slot?, Scope.slot?, alike.slots]

theorem Alike.withSlots (alike : scope.Alike other) (slots : List (String × Option Value)) :
    Alike { scope with slots } { other with slots } :=
  ⟨rfl, alike.functions⟩

/-- Assigning in alike scopes gives alike scopes, or in neither. -/
theorem Alike.assign? (alike : scope.Alike other) (name : String) (value : Value) :
    (∃ changed copy, scope.assign? name value = some changed ∧
      other.assign? name value = some copy ∧ changed.Alike copy) ∨
    scope.assign? name value = none ∧ other.assign? name value = none := by
  rw [Scope.assign?, Scope.assign?, alike.slot?, alike.slots]
  cases other.slot? name with
  | none => exact .inr ⟨rfl, rfl⟩
  | some slot => exact .inl ⟨_, _, rfl, rfl, alike.withSlots _⟩

theorem Alike.defineVariable (alike : scope.Alike other) (name : String) (value : Option Value) :
    (∃ changed copy, scope.defineVariable name value = .ok changed ∧
      other.defineVariable name value = .ok copy ∧ changed.Alike copy) ∨
    scope.defineVariable name value = .error (.variableDefined name) ∧
      other.defineVariable name value = .error (.variableDefined name) := by
  rw [Scope.defineVariable, Scope.defineVariable, alike.slot?, alike.slots]
  cases other.slot? name with
  | some slot => exact .inr ⟨rfl, rfl⟩
  | none => exact .inl ⟨_, _, rfl, rfl, alike.withSlots _⟩

end Scope

namespace Chain

private theorem alike_assignIn? {scopes others : List Scope}
    (alike : List.Forall₂ Scope.Alike scopes others) (name : String) (value : Value) :
    (∃ changed copies, assignIn? name value scopes = some changed ∧
      assignIn? name value others = some copies ∧ List.Forall₂ Scope.Alike changed copies) ∨
    assignIn? name value scopes = none ∧ assignIn? name value others = none := by
  induction alike with
  | nil => exact .inr ⟨rfl, rfl⟩
  | @cons scope other scopes others first rest ih =>
    rcases first.assign? name value with ⟨changed, copy, left, right, same⟩ | ⟨left, right⟩
    · exact .inl ⟨changed :: scopes, copy :: others, by rw [assignIn?, left],
        by rw [assignIn?, right], .cons same rest⟩
    · simp only [assignIn?, left, right]
      rcases ih with ⟨changed, copies, left, right, same⟩ | ⟨left, right⟩
      · exact .inl ⟨scope :: changed, other :: copies, by rw [left]; rfl, by rw [right]; rfl,
          .cons first same⟩
      · exact .inr ⟨by rw [left]; rfl, by rw [right]; rfl⟩

private theorem findSome?_alike {α : Type} {read : Scope → Option α} {scopes others : List Scope}
    (alike : List.Forall₂ Scope.Alike scopes others)
    (same : ∀ {scope other : Scope}, scope.Alike other → read scope = read other) :
    scopes.findSome? read = others.findSome? read := by
  induction alike with
  | nil => rfl
  | cons first _ ih => rw [List.findSome?_cons, List.findSome?_cons, same first, ih]

end Chain

namespace Run

/-- Chains of alike scopes. -/
def ScopeRelation.bindings : ScopeRelation where
  alike _ chain other := List.Forall₂ Scope.Alike chain.scopes other.scopes
  push alike := .cons (.refl _) alike
  pop := by
    rintro _ ⟨current, outer⟩ ⟨other, others⟩ alike
    cases alike with
    | cons first rest =>
      cases rest with
      | nil => exact .cons first .nil
      | cons second rest => exact .cons second rest
  lookup name alike :=
    Chain.lookup_of_findSome (Chain.findSome?_alike alike fun same => same.slot? name)
  lookupFunction name alike := by
    rw [Chain.lookupFunction, Chain.lookupFunction,
      Chain.findSome?_alike alike fun same => same.functions name]
  assign := by
    intro _ chain other name value alike
    have first := chain.assign_eq name value
    have second := other.assign_eq name value
    rcases Chain.alike_assignIn? alike name value with
      ⟨changed, copies, left, right, same⟩ | ⟨left, right⟩
    · simp only [left, right, reduceCtorEq, and_false, or_false, Option.some.injEq] at first second
      obtain ⟨_, first, rfl⟩ := first
      obtain ⟨_, second, rfl⟩ := second
      rw [first, second]
      exact same
    · simp only [left, right, reduceCtorEq, and_false, exists_false, and_true, false_or]
        at first second
      rw [first, second]
      rfl
  define := by
    rintro _ ⟨current, outer⟩ ⟨other, others⟩ name value alike
    cases alike with
    | cons first rest =>
      rw [Chain.defineVariable, Chain.defineVariable]
      rcases first.defineVariable name value with ⟨_, _, left, right, same⟩ | ⟨left, right⟩
      · rw [left, right]
        exact .cons same rest
      · rw [left, right]
        rfl

end Run

namespace Session

variable {steps others : List Step} {session other : Session}

/-- In the same steps or more, a run over an alike global scope gives what a run that ended
gave. -/
theorem run_alike (alike : session.globals.Alike other.globals) (sink : Sink) {count more : Nat}
    (fewer : count ≤ more) {entry : String}
    (ended : (session.run sink count entry).1 ≠ .error .unfinished) :
    (Session.run sink more entry ⟨other.globals, session.console⟩).1 =
        (session.run sink count entry).1 ∧
      (Session.run sink more entry ⟨other.globals, session.console⟩).2.console =
        (session.run sink count entry).2.console := by
  simp only [run, ← alike.functions] at ended ⊢
  generalize session.globals.function? entry = found at ended ⊢
  cases found with
  | none => exact ⟨rfl, rfl⟩
  | some function =>
    have executes := (ScopeRelation.bindings.quiet.refines_steps sink fewer).2
    have matched := Correspondence.refines_callFunction executes function [] function.line
      (fun _ _ (deep : 0 + 2 = 0) => absurd deep (Nat.succ_ne_zero 1))
      ⟨Chain.root session.globals, session.console⟩ ⟨Chain.root other.globals, session.console⟩
      ⟨.cons alike .nil, rfl⟩
    simp only at ended ⊢
    generalize callFunction (execute sink count) _ _ _ _ = outcome at matched ended ⊢
    generalize callFunction (execute sink more) _ _ _ _ = counterpart at matched ⊢
    cases matched with
    | unfinished => exact absurd rfl ended
    | ok same machines =>
      obtain rfl := same
      exact ⟨rfl, machines.2.symm⟩
    | failed same machines =>
      obtain rfl := same
      exact ⟨rfl, machines.2.symm⟩

/-- What a run with a sink that takes everything gives: a result, and a text behind what was
printed before. All else is as it was. -/
structure RunsTo (session : Session) (count : Nat) (entry : String)
    (result : Except Interruption (Option Value)) (text : String) : Prop where
  result : (session.run .accepting count entry).1 = result
  output : (session.run .accepting count entry).2.output = session.output ++ text
  globals : (session.run .accepting count entry).2.globals = session.globals

private theorem output_run (session : Session) (count : Nat) (entry : String) :
    ∃ text, (session.run .accepting count entry).2.output = session.output ++ text := by
  obtain ⟨_, _, writes, _, delivers⟩ := exists_delivers session.globals count entry
  refine ⟨String.join (writes.map Write.text), ?_⟩
  rw [delivers.run_accepting session.console]
  exact Console.output_taking _ _

private theorem Reaches.runsTo (reached : Reaches .accepting steps .empty session) (count : Nat)
    (entry : String) : ∃ result text, session.RunsTo count entry result text := by
  obtain ⟨text, printed⟩ := session.output_run count entry
  exact ⟨_, text, rfl, printed, reached.globals_run count entry⟩

private theorem Reaches.alike (reached : Reaches .accepting steps .empty session)
    (also : Reaches .accepting others .empty other)
    (same : ∀ name, session.globals.function? name = other.globals.function? name) :
    session.globals.Alike other.globals := by
  refine ⟨?_, same⟩
  rw [Scope.slots_eq_nil reached.names, Scope.slots_eq_nil also.names]

/-- What a run gives depends on the functions of the session and on nothing else. -/
theorem RunsTo.of_same {count more : Nat} {entry : String}
    {result : Except Interruption (Option Value)} {text : String}
    (runs : session.RunsTo count entry result text)
    (reached : Reaches .accepting steps .empty session)
    (also : Reaches .accepting others .empty other)
    (same : ∀ name, session.globals.function? name = other.globals.function? name)
    (fewer : count ≤ more) (ended : result ≠ .error .unfinished) :
    other.RunsTo more entry result text := by
  obtain ⟨outcome, final, writes, _, delivers⟩ := exists_delivers other.globals more entry
  obtain rfl := runs.result
  obtain ⟨results, consoles⟩ := run_alike (reached.alike also same) .accepting fewer ended
  -- The text is read off at the console of the first session, and is the same at the other.
  rw [delivers.run_accepting] at results consoles
  have texts : session.output ++ String.join (writes.map Write.text) = session.output ++ text := by
    rw [← runs.output, Session.output, Session.output, ← consoles, Console.output_taking]
  have ran := delivers.run_accepting other.console
  refine ⟨?_, ?_, also.globals_run more entry⟩
  · rw [ran]
    exact results
  · rw [ran, ← (String.append_right_inj _).mp texts]
    exact Console.output_taking _ _

/-- Output grows at its end, and functions stay bound. -/
theorem lasting_additions : Lasting .accepting fun before after =>
    (∃ text, after.output = before.output ++ text) ∧
      ∀ name function, before.globals.function? name = some function →
        after.globals.function? name = some function where
  refl session := ⟨⟨"", by simp⟩, fun _ _ found => found⟩
  trans first second := by
    obtain ⟨⟨text, printed⟩, bound⟩ := first
    obtain ⟨⟨more, behind⟩, still⟩ := second
    refine ⟨⟨text ++ more, by rw [behind, printed, String.append_assoc]⟩, ?_⟩
    exact fun name function found => still name function (bound name function found)
  load session program := by
    obtain ⟨_, _, loads, _⟩ := session.load_upTo program
    refine ⟨⟨"", (String.append_empty).symm⟩, fun name function found => ?_⟩
    rw [loads.bound, found]
    rfl
  run session count entry := by
    refine ⟨session.output_run count entry, fun name function found => ?_⟩
    rw [Scope.function?, (session.run_keeps .accepting count entry).functions]
    exact found

/-- Sessions are isolated from what was done before. Along any steps, the output grows at its
end and functions stay bound. A load binds the functions in front of its first declaration that
cannot be loaded and prints nothing. A file that cannot be read leaves all as it is; one that can
is loaded like its program, and running it is loading it and then, if that succeeded, a run. A
run changes nothing but the output. What it gives, and the text that it prints, is the same in
all sessions with the same functions, however they were reached, and so also the next time. -/
theorem steps_isolated (reached : Reaches .accepting steps .empty session) :
    (∀ more after, Reaches .accepting more session after →
      (∃ text, after.output = session.output ++ text) ∧
      ∀ name function, session.globals.function? name = some function →
        after.globals.function? name = some function) ∧
    (∀ program, (session.load program).2.output = session.output ∧
      ∃ accepted rest, LoadsUpTo program.declarations session.globals
          (session.load program).2.globals accepted rest ∧
        ((session.load program).1 = .ok () ↔ rest = [])) ∧
    (∀ files path error, Source.load files path = .error error →
      session.loadFile files path = (.error error, session) ∧
      ∀ count entry, session.runFile files .accepting count path entry =
        (.error (.compile error), session)) ∧
    (∀ files path loaded, Source.load files path = .ok loaded →
      (session.loadFile files path).2 = (session.load loaded.program).2 ∧
      ∀ count entry, session.runFile files .accepting count path entry =
        match session.load loaded.program with
        | (.ok (), after) => ((after.run .accepting count entry).1.mapError .interrupted,
            (after.run .accepting count entry).2)
        | (.error error, after) => (.error (.compile (.load error)), after)) ∧
    (∀ count entry, ∃ result text, session.RunsTo count entry result text) ∧
    (∀ others other, Reaches .accepting others .empty other →
      (∀ name, session.globals.function? name = other.globals.function? name) →
      ∀ count more entry result text, count ≤ more → session.RunsTo count entry result text →
        result ≠ .error .unfinished → other.RunsTo more entry result text) ∧
    ∀ count entry result text, session.RunsTo count entry result text →
      result ≠ .error .unfinished →
        (session.run .accepting count entry).2.RunsTo count entry result text := by
  refine ⟨?_, ?_, ?_, ?_, ?_, ?_, ?_⟩
  · intro more after reaches
    exact lasting_additions.reaches reaches
  · intro program
    exact ⟨rfl, session.load_upTo program⟩
  · intro files path error failed
    exact ⟨session.loadFile_of_error failed, session.runFile_of_error failed .accepting⟩
  · intro files path loaded read
    exact ⟨session.snd_loadFile_of_ok read, session.runFile_of_ok read .accepting⟩
  · exact reached.runsTo
  · intro others other also same count more entry result text fewer runs ended
    exact runs.of_same reached also same fewer ended
  · intro count entry result text runs ended
    obtain rfl := runs.result
    have also := reached.snoc (.run ended)
    exact runs.of_same reached also (fun name => by rw [runs.globals]) (Nat.le_refl count) ended

/-- A function that prints, declared twice. -/
def greeting : Program :=
  let function : Function := ⟨"greet", [], ⟨"int", 0⟩,
    [.evaluate (.call (.identifier "print" 1) [.literal (.string "hi") 1] 1) 1], 1, 1⟩
  ⟨[function.declaration, function.declaration]⟩

/-- Loading the function fails at its second declaration, and the first can be run again and
again. -/
theorem greeting_isolated : (empty.load greeting).1 ≠ .ok () ∧
    Reaches .accepting [.load greeting] .empty (empty.load greeting).2 ∧
    (empty.load greeting).2.RunsTo 8 "greet" (.ok none) "hi" ∧
    ((empty.load greeting).2.run .accepting 8 "greet").2.RunsTo 8 "greet" (.ok none) "hi" := by
  have reached : Reaches .accepting [.load greeting] .empty (empty.load greeting).2 :=
    .cons .load .nil
  have runs : (empty.load greeting).2.RunsTo 8 "greet" (.ok none) "hi" :=
    ⟨rfl, by decide +kernel, rfl⟩
  obtain ⟨_, _, _, _, _, _, again⟩ := steps_isolated reached
  exact ⟨by rintro ⟨⟩, reached, runs, again 8 "greet" (.ok none) "hi" runs (by rintro ⟨⟩)⟩

end Session

end Scriptlet
