import Mathlib.Data.List.Forall2
import Scriptlet.Proofs.Except
import Scriptlet.Proofs.Run.Discipline
import Scriptlet.Proofs.Run.LoopControl

/-! Which variables there are. Running defines variables in the current scope only, and of these
only what the statement declares there; all else that a run does to scopes is to change values. -/
namespace Scriptlet

/-- A statement as a part of another, at any depth. -/
inductive Stmt.Within (part : Stmt) : Stmt → Prop where
  | self : Within part part
  | block {statements : List Stmt} {line : Nat} {inner : Stmt} (member : inner ∈ statements)
      (inside : Within part inner) : Within part (.block statements line)
  | whenTrue {condition : Expr} {first : Stmt} {second : Option Stmt} {line : Nat}
      (inside : Within part first) : Within part (.branch condition first second line)
  | whenFalse {condition : Expr} {first second : Stmt} {line : Nat}
      (inside : Within part second) : Within part (.branch condition first (some second) line)
  | body {condition : Expr} {inner : Stmt} {stepped : Bool} {line : Nat}
      (inside : Within part inner) : Within part (.loop condition inner stepped line)
  | function {name : String} {parameters : List Parameter} {result : DeclaredType}
      {body : List Stmt} {bodyLine line : Nat} {inner : Stmt} (member : inner ∈ body)
      (inside : Within part inner) :
      Within part (.function name parameters result body bodyLine line)

namespace Stmt.Shaped

theorem within {part whole : Stmt} {inLoop : Bool} (shaped : whole.Shaped inLoop)
    (inside : part.Within whole) : ∃ inLoop, part.Shaped inLoop := by
  induction inside generalizing inLoop with
  | self => exact ⟨inLoop, shaped⟩
  | block member _ ih =>
    cases shaped with
    | block each => exact ih (each _ member)
  | whenTrue _ ih =>
    cases shaped with
    | branch test noDeclaration first => exact ih first
  | whenFalse _ ih =>
    cases shaped with
    | branch test noDeclaration first noOther second => exact ih (second _ rfl)
  | body _ ih =>
    cases shaped with
    | loop test noDeclaration nested => exact ih nested
  | function member _ ih =>
    cases shaped with
    | function few each => exact ih (each _ member)

/-- In the grammar, only a declaration itself declares a name where it stands. -/
theorem eq_declare {steps inLoop : Bool} {statement : Stmt} {name : String}
    (shaped : statement.Shaped inLoop) (declares : statement.Declares steps name) :
    ∃ type initializer line, statement = .declare name type initializer line := by
  induction declares generalizing inLoop with
  | declare => exact ⟨_, _, _, rfl⟩
  | whenTrue _ ih =>
    cases shaped with
    | branch test noDeclaration first =>
      obtain ⟨_, _, _, rfl⟩ := ih first
      cases noDeclaration
  | whenFalse _ ih =>
    cases shaped with
    | branch test noDeclaration first noOther second =>
      obtain ⟨_, _, _, rfl⟩ := ih (second _ rfl)
      cases noOther _ rfl
  | body _ ih =>
    cases shaped with
    | loop test noDeclaration nested =>
      obtain ⟨_, _, _, rfl⟩ := ih nested
      cases noDeclaration
  | @step _ inner increment stepped _ _ _ kept inside =>
    -- The increment of a written loop is an expression, which declares nothing.
    cases shaped with
    | loop test noDeclaration nested step =>
      cases stepped with
      | false => cases kept
      | true =>
        obtain ⟨_, _, _, _, _, rfl⟩ := step rfl
        cases kept
        cases inside

end Stmt.Shaped

/-- The names of the variables of a scope, with a value or without one. -/
def Scope.names (scope : Scope) : Set String := {name | scope.slot? name ≠ none}

/-- What running leaves of a scope: the same functions, all variables and no new ones but those
declared, and a value where there was one. -/
structure Scope.Keeps (declared : Set String) (before after : Scope) : Prop where
  kept : before.names ⊆ after.names
  added : after.names ⊆ before.names ∪ declared
  assigned {name : String} {value : Value} : before.slot? name = some (some value) →
    ∃ other, after.slot? name = some (some other)
  functions : after.functions = before.functions

namespace Scope.Keeps

variable {declared more : Set String} {before middle after : Scope}

theorem refl (scope : Scope) : scope.Keeps declared scope :=
  ⟨subset_rfl, Set.subset_union_left, fun found => ⟨_, found⟩, rfl⟩

theorem trans (first : before.Keeps declared middle) (second : middle.Keeps declared after) :
    before.Keeps declared after where
  kept := first.kept.trans second.kept
  added := second.added.trans (Set.union_subset first.added Set.subset_union_right)
  assigned found := by
    obtain ⟨_, found⟩ := first.assigned found
    exact second.assigned found
  functions := second.functions.trans first.functions

theorem widen (keeps : before.Keeps declared after) (wider : declared ⊆ more) :
    before.Keeps more after :=
  { keeps with added := keeps.added.trans (Set.union_subset_union_right _ wider) }

/-- Where nothing is declared, the variables are the same. -/
theorem names_eq (keeps : before.Keeps ∅ after) : after.names = before.names :=
  Set.Subset.antisymm (by simpa using keeps.added) keeps.kept

theorem all_refl (scopes : List Scope) : List.Forall₂ (Scope.Keeps ∅) scopes scopes :=
  List.forall₂_same.mpr fun scope _ => .refl scope

theorem all_trans {before middle after : List Scope}
    (first : List.Forall₂ (Scope.Keeps ∅) before middle)
    (second : List.Forall₂ (Scope.Keeps ∅) middle after) :
    List.Forall₂ (Scope.Keeps ∅) before after := by
  induction first generalizing after with
  | nil => exact second
  | cons keeps _ ih =>
    cases second with
    | cons others rest => exact .cons (keeps.trans others) (ih rest)

end Scope.Keeps

namespace Scope

theorem lookup_cons {α : Type} (name key : String) (entry : α) (rest : List (String × α)) :
    ((key, entry) :: rest).lookup name = if name = key then some entry else rest.lookup name := by
  by_cases same : name = key
  · simp [same]
  · rw [List.lookup_cons, beq_false_of_ne same, if_neg same]

theorem slot?_assign? {scope changed : Scope} {name : String} {value : Value}
    (success : scope.assign? name value = some changed) (other : String) :
    changed.slot? other =
      if other = name then (scope.slot? name).map fun _ => some value else scope.slot? other := by
  rw [assign?] at success
  split at success
  · cases success
  · cases success
    simp only [slot?]
    generalize scope.slots = slots
    induction slots with
    | nil => simp
    | cons entry rest ih =>
      obtain ⟨key, slot⟩ := entry
      by_cases here : key = name <;> by_cases same : other = name <;> grind [lookup_cons]

private theorem keeps_assign? {scope changed : Scope} {name : String} {value : Value}
    (success : scope.assign? name value = some changed) : scope.Keeps ∅ changed := by
  have same : changed.names = scope.names := by
    ext other
    simp only [names, Set.mem_ofPred_eq, slot?_assign? success]
    split
    · subst_vars
      simp
    · rfl
  refine ⟨same.ge, same.le.trans Set.subset_union_left, ?_, functions_assign? success⟩
  intro other old found
  rw [slot?_assign? success]
  split
  · subst_vars
    exact ⟨value, by rw [found]; rfl⟩
  · exact ⟨old, found⟩

theorem slot?_defineVariable {scope changed : Scope} {name : String} {value : Option Value}
    (success : scope.defineVariable name value = .ok changed) (other : String) :
    scope.slot? name = none ∧
      changed.slot? other = if other = name then some value else scope.slot? other := by
  rw [defineVariable] at success
  split at success
  · cases success
  · rename_i free
    cases success
    refine ⟨free, ?_⟩
    by_cases same : other = name <;> simp [slot?, lookup_cons, same]

private theorem keeps_defineVariable {scope changed : Scope} {name : String} {value : Option Value}
    (success : scope.defineVariable name value = .ok changed) : scope.Keeps {name} changed := by
  have free := (slot?_defineVariable success name).1
  have slots := fun other => (slot?_defineVariable success other).2
  refine ⟨?_, ?_, ?_, functions_defineVariable success⟩
  · intro other found
    simp only [names, Set.mem_ofPred_eq, slots] at found ⊢
    split
    · simp
    · exact found
  · intro other found
    simp only [names, Set.mem_ofPred_eq, slots] at found
    split at found
    · exact .inr ‹_›
    · exact .inl found
  · intro other old found
    have different : other ≠ name := by
      rintro rfl
      rw [free] at found
      cases found
    exact ⟨old, by rw [slots, if_neg different, found]⟩

end Scope

theorem Chain.lookup_eq_undefined {chain : Chain} {name : String} :
    chain.lookup name = .error (.undefinedVariable name) ↔
      ∀ scope ∈ chain.scopes, name ∉ scope.names := by
  have absent : (∀ scope ∈ chain.scopes, name ∉ scope.names) ↔
      chain.scopes.findSome? (·.slot? name) = none := by
    simp [Scope.names]
  rw [absent, lookup]
  split <;> simp_all

/-- What running leaves of a chain: the current scope with what is declared in it, and all
others with the variables they have. -/
structure Chain.Keeps (declared : Set String) (before after : Chain) : Prop where
  current : before.current.Keeps declared after.current
  outer : List.Forall₂ (Scope.Keeps ∅) before.outer after.outer

namespace Chain.Keeps

variable {declared more : Set String} {before middle after : Chain}

theorem refl (chain : Chain) : chain.Keeps declared chain :=
  ⟨.refl _, Scope.Keeps.all_refl _⟩

theorem trans (first : before.Keeps declared middle) (second : middle.Keeps declared after) :
    before.Keeps declared after :=
  ⟨first.current.trans second.current, Scope.Keeps.all_trans first.outer second.outer⟩

theorem widen (keeps : before.Keeps declared after) (wider : declared ⊆ more) :
    before.Keeps more after :=
  ⟨keeps.current.widen wider, keeps.outer⟩

theorem ofScopes (each : List.Forall₂ (Scope.Keeps ∅) before.scopes after.scopes) :
    before.Keeps ∅ after := by
  cases each with
  | cons current outer => exact ⟨current, outer⟩

/-- What was declared in a scope is gone when it is left. -/
theorem pop (inside : before.push.Keeps declared after) : before.Keeps ∅ after.pop := by
  obtain ⟨_, outer⟩ := inside
  obtain ⟨current, scopes⟩ := after
  cases outer with
  | cons first rest => exact ⟨first, rest⟩

/-- Where nothing is declared, the same names are visible as before. -/
theorem undefined_iff (keeps : before.Keeps ∅ after) (name : String) :
    after.lookup name = .error (.undefinedVariable name) ↔
      before.lookup name = .error (.undefinedVariable name) := by
  have each : List.Forall₂ (Scope.Keeps ∅) before.scopes after.scopes :=
    .cons keeps.current keeps.outer
  rw [lookup_eq_undefined, lookup_eq_undefined]
  generalize before.scopes = scopes, after.scopes = others at each
  induction each with
  | nil => simp
  | cons first _ ih =>
    rw [List.forall_mem_cons, List.forall_mem_cons, first.names_eq]
    exact and_congr_right fun _ => ih

/-- The same functions can be called as before. -/
theorem binds {holds : Function → Prop} (keeps : before.Keeps declared after)
    (binds : before.Binds holds) : after.Binds holds := by
  have each := keeps.outer
  have outer : after.outer.map Scope.functions = before.outer.map Scope.functions := by
    generalize before.outer = scopes, after.outer = others at each
    induction each with
    | nil => rfl
    | cons first _ ih => rw [List.map_cons, List.map_cons, first.functions, ih]
  have same : after.scopes.map Scope.functions = before.scopes.map Scope.functions := by
    rw [scopes, scopes, List.map_cons, List.map_cons, keeps.current.functions, outer]
  rw [Binds.iff_functions, same, ← Binds.iff_functions]
  exact binds

end Chain.Keeps

namespace Chain

private theorem keeps_assignIn? {name : String} {value : Value} {before after : List Scope}
    (success : assignIn? name value before = some after) :
    List.Forall₂ (Scope.Keeps ∅) before after := by
  induction before generalizing after with
  | nil => cases success
  | cons first rest ih =>
    rw [assignIn?] at success
    split at success
    · rename_i found
      cases success
      exact .cons (Scope.keeps_assign? found) (Scope.Keeps.all_refl rest)
    · obtain ⟨others, found, rfl⟩ := Option.map_eq_some_iff.mp success
      exact .cons (.refl first) (ih found)

theorem keeps_assign {chain changed : Chain} {name : String} {value : Value}
    (success : chain.assign name value = .ok changed) : chain.Keeps ∅ changed := by
  rcases chain.assign_eq name value with ⟨other, same, found⟩ | ⟨missing, _⟩
  · cases success.symm.trans same
    exact .ofScopes (keeps_assignIn? found)
  · rw [success] at missing
    cases missing

theorem keeps_defineVariable {chain changed : Chain} {name : String} {value : Option Value}
    (success : chain.defineVariable name value = .ok changed) : chain.Keeps {name} changed := by
  obtain ⟨current, found, rfl⟩ := Except.ok_of_map success
  exact ⟨Scope.keeps_defineVariable found, Scope.Keeps.all_refl _⟩

end Chain

namespace Run

open Exec

/-- The chain that an action leaves, whether it succeeds or fails. -/
def Outcome.chain {α : Type} : Outcome α → Chain
  | .ok _ machine => machine.chain
  | .error _ machine => machine.chain

/-- Whether it succeeds or fails, an action defines at most these variables in the current scope
and none in any other. -/
def KeepsScopes {α : Type} (names : Set String) (action : Sinks → Exec α) : Prop :=
  ∀ (sinks : Sinks) (machine : Machine),
    machine.chain.Keeps names (Outcome.chain (action sinks machine))

namespace KeepsScopes

variable {α β : Type} {names : Set String} {action : Sinks → Exec α}

/-- An action on the chain alone. -/
theorem ofChain {change : Chain → Except ScopeFault Chain} {action : Sinks → Exec Unit}
    (run : ∀ sinks machine, action sinks machine =
      match change machine.chain with
      | .ok chain => .ok () { machine with chain }
      | .error fault => .error (.failed (.unplaced (.scope fault))) machine)
    (keeps : ∀ {chain changed}, change chain = .ok changed → chain.Keeps names changed) :
    KeepsScopes names action := by
  intro sinks machine
  rw [run]
  cases success : change machine.chain with
  | ok changed => exact keeps success
  | error fault => exact .refl _

theorem bind {next : Sinks → α → Exec β} (first : KeepsScopes names action)
    (rest : ∀ value, KeepsScopes names fun sinks => next sinks value) :
    KeepsScopes names fun sinks => action sinks >>= next sinks := by
  intro sinks machine
  have keeps := first sinks machine
  simp only [bind_apply]
  generalize action sinks machine = outcome at keeps ⊢
  cases outcome with
  | ok value after => exact keeps.trans (rest value sinks after)
  | error reason after => exact keeps

theorem locate (line : Nat) (located : KeepsScopes names action) :
    KeepsScopes names fun sinks => Exec.locate line (action sinks) := by
  intro sinks machine
  have keeps := located sinks machine
  simp only [Exec.locate, EStateM.adaptExcept]
  generalize action sinks machine = outcome at keeps ⊢
  cases outcome <;> exact keeps

theorem inScope (inside : KeepsScopes names action) :
    KeepsScopes ∅ fun sinks => Exec.inScope (action sinks) := by
  intro sinks machine
  have keeps := inside sinks { machine with chain := machine.chain.push }
  simp only [Exec.inScope]
  generalize action sinks _ = outcome at keeps ⊢
  cases outcome <;> exact keeps.pop

theorem emit (sink : Sink) (text : String) : KeepsScopes ∅ fun _ => Exec.emit sink text := by
  intro sinks machine
  simp only [Exec.emit]
  split
  · exact .refl _
  · rw [Correspondence.offer_apply]
    split <;> exact .refl _

theorem print (line : Nat) (text : String) :
    KeepsScopes ∅ fun sinks => Exec.locate line (Exec.emit (sinks line) text) :=
  locate line fun sinks machine => emit (sinks line) text sinks machine

end KeepsScopes

/-- Keeping to the scopes is a discipline. -/
def scoping : Discipline where
  Holds := KeepsScopes
  widen holds wider sinks machine := (holds sinks machine).widen wider
  pure _ _ _ := .refl _
  interrupt _ _ _ := .refl _
  bind := .bind
  locate := .locate
  inScope := .inScope
  look read _ machine := by
    change machine.chain.Keeps ∅ (Outcome.chain (Exec.scope (read machine.chain) machine))
    cases read machine.chain <;> exact .refl _
  assign name value := .ofChain (fun _ => Correspondence.assign_apply name value)
    Chain.keeps_assign
  define name value := .ofChain (fun _ => Correspondence.define_apply name value)
    Chain.keeps_defineVariable
  print := .print

theorem evaluates_scoped (sink : Sink) (steps : Nat) :
    scoping.Evaluates fun _ => evaluate sink steps := by
  intro expression _ machine
  rw [← (evaluateAt_const sink steps).1]
  exact (scoping.steps steps).1 expression (fun _ => sink) machine

theorem executes_scoped (sink : Sink) (steps : Nat) :
    scoping.Executes fun _ => execute sink steps := by
  intro statement _ machine
  rw [← (evaluateAt_const sink steps).2]
  exact (scoping.steps steps).2 statement (fun _ => sink) machine

/-- A stepped loop whose body ends in a declaration. -/
def steppedDeclaration : Stmt :=
  .loop (.identifier "again" 1) (.block [.evaluate (.assign "again" (.literal (.bool false) 1) 1) 1,
    .proceed 1, .declare "local" ⟨"int", 0⟩ none 1] 1) true 1

def againScope : Scope := ⟨[("again", some (.bool true))], []⟩

/-- The increment of a stepped loop is executed outside of the block that holds it: where it is
a declaration, its variable is there after the loop, though it is declared in no statement of
the loop that stands outside of all blocks. -/
theorem declaration_leavesBlock :
    againScope.slot? "local" = none ∧
    (∃ after, execute .accepting 8 steppedDeclaration ⟨Chain.root againScope, Console.empty⟩ =
      .ok .normal after ∧ after.chain.current.slot? "local" = some none) ∧
    ¬ steppedDeclaration.Declares false "local" := by
  refine ⟨rfl, ⟨_, rfl, rfl⟩, ?_⟩
  intro declares
  cases declares with
  | body inside => cases inside
  | step counted => cases counted

end Run

end Scriptlet
