import Mathlib.Data.List.Induction
import Scriptlet.Proofs.Except
import Scriptlet.Proofs.Scope.Layers
import Scriptlet.Proofs.Session.Steps

/-! What a chain of scopes shows is what was done to it. Whatever operations came before, and
whichever of them failed, looking up a name gives what was last given to the innermost variable, or
the innermost function, of that name whose scope has not been left. -/
namespace Scriptlet

open Run

namespace Chain

/-- What can be done to a chain. -/
inductive Operation where
  | push
  | pop
  | defineVariable (name : String) (value : Option Value)
  | defineFunction (name : String) (function : Function)
  | assign (name : String) (value : Value)

def Operation.isDefinition : Operation → Bool
  | defineVariable _ _ => true
  | defineFunction _ _ => true
  | _ => false

def perform (chain : Chain) : Operation → Except ScopeFault Chain
  | .push => .ok chain.push
  | .pop => .ok chain.pop
  | .defineVariable name value => chain.defineVariable name value
  | .defineFunction name function => chain.defineFunction name function
  | .assign name value => chain.assign name value

/-- The chain after an operation, whether it succeeds or fails. -/
def after (chain : Chain) (operation : Operation) : Chain :=
  match chain.perform operation with
  | .ok changed => changed
  | .error _ => chain

def afterAll (chain : Chain) (operations : List Operation) : Chain := operations.foldl after chain

/-- The chain that operations make of a single empty scope. -/
def reached (operations : List Operation) : Chain := (root Scope.empty).afterAll operations

/-- The number of scopes around the current one, counted in the operations alone. -/
def depth (operations : List Operation) : Nat :=
  operations.foldl (fun level operation =>
    match operation with
    | .push => level + 1
    | .pop => level - 1
    | _ => level) 0

/-- An operation gives the variable of the scope at a level a value, or defines it without one:
a definition in the current scope, if the name is free there, and an assignment in the scope in
which the name is found. -/
inductive GivesVariable (name : String) (chain : Chain) :
    Operation → Nat → Option Value → Prop where
  | define {value : Option Value} (free : name ∉ chain.current.names) :
      GivesVariable name chain (.defineVariable name value) chain.outer.length value
  | assign {value : Value} {inner outer : List Scope} {scope : Scope}
      (found : chain.Found name inner scope outer) :
      GivesVariable name chain (.assign name value) outer.length (some value)

/-- An operation binds a function in the scope at a level: a definition in the current scope, if
no function of that name is there. -/
inductive GivesFunction (name : String) (chain : Chain) : Operation → Nat → Function → Prop where
  | define {function : Function} (free : chain.current.function? name = none) :
      GivesFunction name chain (.defineFunction name function) chain.outer.length function

/-- An operation leaves the scope at a level. The outermost scope is never left. -/
def Leaves (chain : Chain) (operation : Operation) (level : Nat) : Prop :=
  operation = .pop ∧ chain.outer ≠ [] ∧ level = chain.outer.length

variable {α : Type}

/-- What was given last to the scope at a level, since that scope was entered. -/
inductive Stands (gives : Chain → Operation → Nat → α → Prop) :
    List Operation → Nat → α → Prop where
  | now {earlier : List Operation} {operation : Operation} {level : Nat} {entry : α}
      (given : gives (reached earlier) operation level entry) :
      Stands gives (earlier ++ [operation]) level entry
  | before {earlier : List Operation} {operation : Operation} {level : Nat} {entry : α}
      (stood : Stands gives earlier level entry)
      (unchanged : ∀ other, ¬ gives (reached earlier) operation level other)
      (stays : ¬ (reached earlier).Leaves operation level) :
      Stands gives (earlier ++ [operation]) level entry

/-- What was given last to the innermost scope that was given anything. -/
def Shows (gives : Chain → Operation → Nat → α → Prop) (operations : List Operation) (entry : α) :
    Prop :=
  ∃ level, Stands gives operations level entry ∧
    ∀ further, level < further → ∀ other, ¬ Stands gives operations further other

variable {chain changed : Chain} {operation : Operation}

private theorem after_of_ok (success : chain.perform operation = .ok changed) :
    chain.after operation = changed := by
  rw [after, success]

private theorem after_of_error {fault : ScopeFault}
    (failure : chain.perform operation = .error fault) : chain.after operation = chain := by
  rw [after, failure]

variable {read : Scope → Option α} {gives : Chain → Operation → Nat → α → Prop}

/-- What is read after an operation is what it gives, and what was read before in the scopes that
it neither gives anything nor leaves. -/
def Accounts (read : Scope → Option α) (gives : Chain → Operation → Nat → α → Prop)
    (chain : Chain) (operation : Operation) : Prop :=
  ∀ level entry, heldAt read (chain.after operation).scopes level = some entry ↔
    gives chain operation level entry ∨
      heldAt read chain.scopes level = some entry ∧
        (∀ other, ¬ gives chain operation level other) ∧ ¬ chain.Leaves operation level

private theorem accounts_of_quiet (stays : ∀ level, ¬ chain.Leaves operation level)
    (quiet : ∀ level entry, ¬ gives chain operation level entry)
    (same : heldAt read (chain.after operation).scopes = heldAt read chain.scopes) :
    Accounts read gives chain operation := by
  intro level entry
  rw [same]
  constructor
  · intro held
    exact .inr ⟨held, quiet level, stays level⟩
  · rintro (given | ⟨held, _⟩)
    · exact absurd given (quiet level entry)
    · exact held

private theorem accounts_of_gave {place : Nat} {value : α}
    (stays : ∀ level, ¬ chain.Leaves operation level)
    (given : ∀ level entry, gives chain operation level entry ↔ level = place ∧ entry = value)
    (gave : Gave read place value chain (chain.after operation)) :
    Accounts read gives chain operation := by
  intro level entry
  simp only [gave level, given]
  by_cases here : level = place
  · simp [here, eq_comm]
  · simp [here, stays level]

private theorem accounts_push (empty : read Scope.empty = none)
    (quiet : ∀ level entry, ¬ gives chain .push level entry) :
    Accounts read gives chain .push := by
  apply accounts_of_quiet
  · rintro level ⟨⟨⟩, _⟩
  · exact quiet
  · funext level
    exact heldAt_cons_of_none empty level

private theorem accounts_pop (quiet : ∀ level entry, ¬ gives chain .pop level entry) :
    Accounts read gives chain .pop := by
  intro level entry
  obtain ⟨current, outer⟩ := chain
  cases outer with
  | nil => simp [after, perform, pop, Leaves, quiet]
  | cons next rest =>
    change heldAt read (next :: rest) level = some entry ↔ _
    by_cases here : level = (next :: rest).length
    · -- The level of the scope that is left lies above all that remain.
      rw [heldAt_of_length_le here.ge]
      simp [here, quiet, Leaves]
    · have above : heldAt read (scopes ⟨current, next :: rest⟩) level =
          heldAt read (next :: rest) level := by
        rw [scopes, heldAt, if_neg here]
      have stays : ¬ Leaves ⟨current, next :: rest⟩ .pop level := fun leaves => here leaves.2.2
      simp [above, quiet, stays]

private theorem accounts_of_failed {fault : ScopeFault}
    (failure : chain.perform operation = .error fault)
    (quiet : ∀ level entry, ¬ gives chain operation level entry) :
    Accounts read gives chain operation := by
  apply accounts_of_quiet
  · rintro level ⟨rfl, _⟩
    cases failure
  · exact quiet
  · rw [after_of_error failure]

/-- Definitions change the current scope alone. -/
theorem heldAt_of_current {current : Scope} (same : read current = read chain.current) :
    heldAt read (scopes { chain with current }) = heldAt read chain.scopes :=
  heldAt_replaced same [] chain.outer

private theorem variable_defineVariable (chain : Chain) (name target : String)
    (value : Option Value) :
    Accounts (·.slot? name) (GivesVariable name) chain (.defineVariable target value) := by
  cases result : chain.perform (.defineVariable target value) with
  | error fault =>
    apply accounts_of_failed result
    rintro _ _ ⟨free⟩
    exact free ((chain.defineVariable_fails_iff name value).mp ⟨fault, result⟩)
  | ok changed =>
    obtain ⟨current, defined, rfl⟩ := Except.ok_of_map result
    obtain ⟨free, slots⟩ := Scope.slot?_defineVariable defined name
    have stays : ∀ level, ¬ chain.Leaves (.defineVariable target value) level := by
      rintro level ⟨⟨⟩, _⟩
    by_cases same : name = target
    · subst same
      apply accounts_of_gave stays
      · intro level slot
        constructor
        · rintro ⟨⟩
          exact ⟨rfl, rfl⟩
        · rintro ⟨rfl, rfl⟩
          exact .define (Scope.not_mem_names.mpr free)
      · rw [after_of_ok result]
        exact gave_current (slots.trans (if_pos rfl))
    · apply accounts_of_quiet stays
      · rintro _ _ ⟨⟩
        exact same rfl
      · rw [after_of_ok result]
        exact heldAt_of_current (slots.trans (if_neg same))

private theorem variable_defineFunction (chain : Chain) (name target : String)
    (function : Function) :
    Accounts (·.slot? name) (GivesVariable name) chain (.defineFunction target function) := by
  have quiet : ∀ level slot,
      ¬ GivesVariable name chain (.defineFunction target function) level slot := by
    rintro _ _ ⟨⟩
  cases result : chain.perform (.defineFunction target function) with
  | error fault => exact accounts_of_failed result quiet
  | ok changed =>
    obtain ⟨current, defined, rfl⟩ := Except.ok_of_map result
    obtain ⟨_, rfl⟩ := Scope.defineFunction_eq_ok.mp defined
    apply accounts_of_quiet _ quiet
    · rw [after_of_ok result]
      exact heldAt_of_current rfl
    · rintro level ⟨⟨⟩, _⟩

private theorem variable_assign (chain : Chain) (name target : String) (value : Value) :
    Accounts (·.slot? name) (GivesVariable name) chain (.assign target value) := by
  cases result : chain.perform (.assign target value) with
  | error fault =>
    apply accounts_of_failed result
    rintro _ _ (_ | found)
    obtain ⟨_, success⟩ :=
      (chain.assign_succeeds_iff name value).mpr (exists_found_iff.mp ⟨_, _, _, found⟩)
    cases result.symm.trans success
  | ok changed =>
    obtain ⟨inner, scope, other, outer, assigns⟩ := assigns_of_ok result
    have stays : ∀ level, ¬ chain.Leaves (.assign target value) level := by
      rintro level ⟨⟨⟩, _⟩
    by_cases same : name = target
    · subst same
      apply accounts_of_gave stays
      · intro level slot
        constructor
        · rintro (_ | found)
          exact ⟨found.level_unique assigns.found, rfl⟩
        · rintro ⟨rfl, rfl⟩
          exact .assign assigns.found
      · rw [after_of_ok result]
        exact assigns.gave
    · apply accounts_of_quiet stays
      · rintro _ _ ⟨⟩
        exact same rfl
      · rw [after_of_ok result, assigns.scopes, assigns.found.parts]
        exact heldAt_replaced ((assigns.slots name).trans (if_neg same)) inner outer

private theorem function_defineVariable (chain : Chain) (name target : String)
    (value : Option Value) :
    Accounts (·.function? name) (GivesFunction name) chain (.defineVariable target value) := by
  have quiet : ∀ level bound,
      ¬ GivesFunction name chain (.defineVariable target value) level bound := by
    rintro _ _ ⟨⟩
  cases result : chain.perform (.defineVariable target value) with
  | error fault => exact accounts_of_failed result quiet
  | ok changed =>
    obtain ⟨current, defined, rfl⟩ := Except.ok_of_map result
    apply accounts_of_quiet _ quiet
    · rw [after_of_ok result]
      exact heldAt_of_current
        (congrArg (List.lookup name) (Scope.functions_defineVariable defined))
    · rintro level ⟨⟨⟩, _⟩

private theorem function_defineFunction (chain : Chain) (name target : String)
    (function : Function) :
    Accounts (·.function? name) (GivesFunction name) chain (.defineFunction target function) := by
  cases result : chain.perform (.defineFunction target function) with
  | error fault =>
    apply accounts_of_failed result
    rintro _ _ ⟨free⟩
    exact (chain.defineFunction_fails_iff name function).mp ⟨fault, result⟩ free
  | ok changed =>
    obtain ⟨current, defined, rfl⟩ := Except.ok_of_map result
    obtain ⟨free, rfl⟩ := Scope.defineFunction_eq_ok.mp defined
    have stays : ∀ level, ¬ chain.Leaves (.defineFunction target function) level := by
      rintro level ⟨⟨⟩, _⟩
    by_cases same : name = target
    · subst same
      apply accounts_of_gave stays
      · intro level bound
        constructor
        · rintro ⟨⟩
          exact ⟨rfl, rfl⟩
        · rintro ⟨rfl, rfl⟩
          exact .define free
      · rw [after_of_ok result]
        exact gave_current ((Scope.lookup_cons name name function _).trans (if_pos rfl))
    · apply accounts_of_quiet stays
      · rintro _ _ ⟨⟩
        exact same rfl
      · rw [after_of_ok result]
        exact heldAt_of_current ((Scope.lookup_cons name target function _).trans (if_neg same))

private theorem function_assign (chain : Chain) (name target : String) (value : Value) :
    Accounts (·.function? name) (GivesFunction name) chain (.assign target value) := by
  have quiet : ∀ level bound, ¬ GivesFunction name chain (.assign target value) level bound := by
    rintro _ _ ⟨⟩
  cases result : chain.perform (.assign target value) with
  | error fault => exact accounts_of_failed result quiet
  | ok changed =>
    obtain ⟨inner, scope, other, outer, assigns⟩ := assigns_of_ok result
    apply accounts_of_quiet _ quiet
    · rw [after_of_ok result, assigns.scopes, assigns.found.parts]
      exact heldAt_replaced (congrArg (List.lookup name) assigns.functions) inner outer
    · rintro level ⟨⟨⟩, _⟩

/-- Every operation accounts for what is read after it, and an empty scope holds nothing. -/
structure Tracked (read : Scope → Option α) (gives : Chain → Operation → Nat → α → Prop) :
    Prop where
  empty : read Scope.empty = none
  accounts (chain : Chain) (operation : Operation) : Accounts read gives chain operation

private theorem variables_tracked (name : String) : Tracked (·.slot? name)
    (GivesVariable name) where
  empty := rfl
  accounts chain operation := by
    cases operation with
    | push => exact accounts_push rfl (by rintro _ _ ⟨⟩)
    | pop => exact accounts_pop (by rintro _ _ ⟨⟩)
    | defineVariable target value => exact chain.variable_defineVariable name target value
    | defineFunction target function => exact chain.variable_defineFunction name target function
    | assign target value => exact chain.variable_assign name target value

private theorem functions_tracked (name : String) : Tracked (·.function? name)
    (GivesFunction name) where
  empty := rfl
  accounts chain operation := by
    cases operation with
    | push => exact accounts_push rfl (by rintro _ _ ⟨⟩)
    | pop => exact accounts_pop (by rintro _ _ ⟨⟩)
    | defineVariable target value => exact chain.function_defineVariable name target value
    | defineFunction target function => exact chain.function_defineFunction name target function
    | assign target value => exact chain.function_assign name target value

private theorem reached_snoc (earlier : List Operation) (operation : Operation) :
    reached (earlier ++ [operation]) = (reached earlier).after operation := by
  rw [reached, afterAll, List.foldl_append]
  rfl

private theorem not_stands_nil {level : Nat} {entry : α} : ¬ Stands gives [] level entry := by
  generalize whole : [] = operations
  intro stands
  cases stands <;> exact absurd whole (by simp)

private theorem stands_snoc {earlier : List Operation} {level : Nat} {entry : α} :
    Stands gives (earlier ++ [operation]) level entry ↔
      gives (reached earlier) operation level entry ∨
        Stands gives earlier level entry ∧
          (∀ other, ¬ gives (reached earlier) operation level other) ∧
            ¬ (reached earlier).Leaves operation level := by
  constructor
  · -- An appended list is no index that `cases` could take apart.
    generalize whole : earlier ++ [operation] = operations
    intro stands
    cases stands with
    | now given =>
      obtain ⟨rfl, ⟨⟩⟩ := List.append_inj' whole rfl
      exact .inl given
    | before stood unchanged stays =>
      obtain ⟨rfl, ⟨⟩⟩ := List.append_inj' whole rfl
      exact .inr ⟨stood, unchanged, stays⟩
  · rintro (given | ⟨stood, unchanged, stays⟩)
    · exact .now given
    · exact .before stood unchanged stays

namespace Tracked

variable (tracked : Tracked read gives)

include tracked

/-- The scopes of a chain hold what was given to them last. -/
theorem heldAt_reached (operations : List Operation) (level : Nat) (entry : α) :
    heldAt read (reached operations).scopes level = some entry ↔
      Stands gives operations level entry := by
  induction operations using List.reverseRecOn generalizing entry with
  | nil =>
    have empty : heldAt read (reached []).scopes level = none := by
      change heldAt read [Scope.empty] level = none
      exact heldAt_cons_of_none tracked.empty level
    simp [empty, not_stands_nil]
  | append_singleton earlier operation ih =>
    rw [reached_snoc, tracked.accounts, stands_snoc, ih]

theorem heldAt_reached_eq_none (operations : List Operation) (level : Nat) :
    heldAt read (reached operations).scopes level = none ↔
      ∀ entry, ¬ Stands gives operations level entry := by
  simp only [← tracked.heldAt_reached, Option.eq_none_iff_forall_ne_some, Ne]

theorem shows_iff (operations : List Operation) (entry : α) :
    Shows gives operations entry ↔ (reached operations).scopes.findSome? read = some entry := by
  simp only [findSome?_eq_some_iff, Shows, tracked.heldAt_reached_eq_none, tracked.heldAt_reached]

theorem none_stands_iff (operations : List Operation) :
    (∀ level entry, ¬ Stands gives operations level entry) ↔
      (reached operations).scopes.findSome? read = none := by
  simp only [findSome?_eq_none_iff, tracked.heldAt_reached_eq_none]

/-- What the current scope holds was given to it by an earlier operation. -/
theorem current_iff (operations : List Operation) :
    read (reached operations).current ≠ none ↔
      ∃ entry, Stands gives operations (reached operations).outer.length entry := by
  rw [← heldAt_current read, Ne, tracked.heldAt_reached_eq_none]
  push Not
  rfl

end Tracked

private theorem lookup_eq_ok (operations : List Operation) (name : String) (value : Value) :
    (reached operations).lookup name = .ok value ↔
      Shows (GivesVariable name) operations (some value) := by
  rw [(variables_tracked name).shows_iff, lookup]
  generalize (reached operations).scopes.findSome? (·.slot? name) = slot
  rcases slot with _ | _ | given <;> simp

private theorem lookup_eq_unassigned (operations : List Operation) (name : String) :
    (reached operations).lookup name = .error (.unassignedVariable name) ↔
      Shows (GivesVariable name) operations none := by
  rw [(variables_tracked name).shows_iff, lookup]
  generalize (reached operations).scopes.findSome? (·.slot? name) = slot
  rcases slot with _ | _ | given <;> simp

private theorem undefined_iff_not_stands (operations : List Operation) (name : String) :
    (reached operations).lookup name = .error (.undefinedVariable name) ↔
      ∀ level slot, ¬ Stands (GivesVariable name) operations level slot := by
  rw [(variables_tracked name).none_stands_iff, lookup]
  generalize (reached operations).scopes.findSome? (·.slot? name) = slot
  rcases slot with _ | _ | given <;> simp

private theorem lookupFunction_eq_ok (operations : List Operation) (name : String)
    (function : Function) : (reached operations).lookupFunction name = .ok function ↔
      Shows (GivesFunction name) operations function := by
  rw [(functions_tracked name).shows_iff, lookupFunction]
  generalize (reached operations).scopes.findSome? (·.function? name) = found
  rcases found with _ | bound <;> simp

private theorem lookupFunction_eq_undefined (operations : List Operation) (name : String) :
    (reached operations).lookupFunction name = .error (.undefinedFunction name) ↔
      ∀ level function, ¬ Stands (GivesFunction name) operations level function := by
  rw [(functions_tracked name).none_stands_iff, lookupFunction]
  generalize (reached operations).scopes.findSome? (·.function? name) = found
  rcases found with _ | bound <;> simp

private theorem lookupFunction_eq_undefined_iff {name : String} :
    chain.lookupFunction name = .error (.undefinedFunction name) ↔
      ∀ scope ∈ chain.scopes, scope.function? name = none := by
  rw [← List.findSome?_eq_none_iff, lookupFunction]
  cases chain.scopes.findSome? (·.function? name) <;> simp

private theorem outer_length_after (chain : Chain) (operation : Operation) :
    (chain.after operation).outer.length =
      match operation with
      | .push => chain.outer.length + 1
      | .pop => chain.outer.length - 1
      | _ => chain.outer.length := by
  cases result : chain.perform operation with
  | error fault =>
    rw [after_of_error result]
    cases operation with
    | push => cases result
    | pop => cases result
    | _ => rfl
  | ok changed =>
    rw [after_of_ok result]
    cases operation with
    | push =>
      cases result
      rfl
    | pop =>
      cases result
      obtain ⟨current, outer⟩ := chain
      cases outer <;> rfl
    | defineVariable name value =>
      obtain ⟨current, _, rfl⟩ := Except.ok_of_map result
      rfl
    | defineFunction name function =>
      obtain ⟨current, _, rfl⟩ := Except.ok_of_map result
      rfl
    | assign name value =>
      obtain ⟨inner, scope, other, outer, assigns⟩ := assigns_of_ok result
      have before := congrArg List.length assigns.found.parts
      have after := congrArg List.length assigns.scopes
      simp only [scopes, List.length_cons, List.length_append] at before after
      simp only
      omega

private theorem outer_length_reached (operations : List Operation) :
    (reached operations).outer.length = depth operations := by
  induction operations using List.reverseRecOn with
  | nil => rfl
  | append_singleton earlier operation ih =>
    rw [reached_snoc, outer_length_after, ih, depth, depth, List.foldl_append]
    rfl

/-- A function stays bound until its scope is left. -/
theorem heldAt_afterAll {later : List Operation} {name : String} {function : Function}
    {level : Nat} (bound : heldAt (·.function? name) chain.scopes level = some function)
    (stays : ∀ front, front <+: later → level ≤ (chain.afterAll front).outer.length) :
    heldAt (·.function? name) (chain.afterAll later).scopes level = some function := by
  induction later generalizing chain with
  | nil => exact bound
  | cons first rest ih =>
    have remains := stays [first] (by simp)
    change level ≤ (chain.after first).outer.length at remains
    rw [outer_length_after] at remains
    apply ih
    · refine ((functions_tracked name).accounts chain first level function).mpr
        (.inr ⟨bound, ?_, ?_⟩)
      · -- The name is bound there already.
        rintro other ⟨free⟩
        rw [heldAt_current, free] at bound
        cases bound
      · rintro ⟨rfl, inside, rfl⟩
        have around := List.length_pos_of_ne_nil inside
        simp only at remains
        omega
    · intro front before
      exact stays (first :: front) (List.cons_prefix_cons.mpr ⟨rfl, before⟩)

/-- Back in its scope, a function that was defined is found, and cannot be defined again. -/
theorem lookupFunction_afterAll {later : List Operation} {name : String} {function : Function}
    (defined : chain.defineFunction name function = .ok changed)
    (stays : ∀ front, front <+: later →
      chain.outer.length ≤ (changed.afterAll front).outer.length)
    (back : (changed.afterAll later).outer.length = chain.outer.length) :
    (changed.afterAll later).lookupFunction name = .ok function ∧
      ∀ other, ∃ fault, (changed.afterAll later).defineFunction name other = .error fault := by
  have held : (changed.afterAll later).current.function? name = some function := by
    rw [← heldAt_current (·.function? name), back]
    apply heldAt_afterAll _ stays
    obtain ⟨current, found, rfl⟩ := Except.ok_of_map defined
    obtain ⟨_, rfl⟩ := Scope.defineFunction_eq_ok.mp found
    rw [gave_current ((Scope.lookup_cons name name function _).trans (if_pos rfl)), if_pos rfl]
  constructor
  · rw [lookupFunction, scopes, List.findSome?_cons, held]
  · intro other
    rw [defineFunction_fails_iff, held]
    exact Option.some_ne_none function

private theorem outer_after (definition : operation.isDefinition = true) :
    (chain.after operation).outer = chain.outer := by
  cases result : chain.perform operation with
  | error fault => rw [after_of_error result]
  | ok changed =>
    rw [after_of_ok result]
    cases operation with
    | defineVariable name value =>
      obtain ⟨current, _, rfl⟩ := Except.ok_of_map result
      rfl
    | defineFunction name function =>
      obtain ⟨current, _, rfl⟩ := Except.ok_of_map result
      rfl
    | _ => cases definition

private theorem outer_afterAll {operations : List Operation}
    (definitions : ∀ operation ∈ operations, operation.isDefinition = true) (chain : Chain) :
    (chain.afterAll operations).outer = chain.outer := by
  induction operations generalizing chain with
  | nil => rfl
  | cons first rest ih =>
    obtain ⟨here, others⟩ := List.forall_mem_cons.mp definitions
    exact (ih others (chain.after first)).trans (outer_after here)

/-- What is only defined in a scope is gone with it. -/
theorem pop_afterAll_push {operations : List Operation}
    (definitions : ∀ operation ∈ operations, operation.isDefinition = true) (chain : Chain) :
    (chain.push.afterAll operations).pop = chain := by
  have outer : (chain.push.afterAll operations).outer = chain.scopes :=
    outer_afterAll definitions chain.push
  exact ext_scopes (scopes_pop outer (List.cons_ne_nil _ _))

end Chain

namespace Run

/-- An action on the chain that fails leaves the machine as it is. -/
theorem machine_of_failed {action : Exec Unit} (change : Chain → Except ScopeFault Chain)
    (run : ∀ machine, action machine =
      match change machine.chain with
      | .ok chain => .ok () { machine with chain }
      | .error fault => .error (.failed (.unplaced (.scope fault))) machine)
    {machine after : Machine} {reason : Interruption}
    (failed : action machine = .error reason after) : after = machine := by
  rw [run] at failed
  split at failed <;> cases failed
  rfl

end Run

private theorem Session.loadDeclarations_failed {function : Function} {scope after : Scope}
    {error : LoadError}
    (failed : loadDeclarations [function.declaration] scope = (.error error, after)) :
    after = scope := by
  rw [Function.declaration, loadDeclarations] at failed
  split at failed <;> cases failed
  rfl

/-- The laws of chains. After any operations, looking up a name gives what was last given to the
innermost variable or function of that name, or says that there is none, or that the variable has
no value yet. Assigning succeeds where the name is found; it changes this one slot, and neither
other names nor functions nor what is found once the scope is left. Definitions fail where the name
is taken in the current scope, in the namespace of the definition, which is where an earlier
operation gave it to a scope that has not been left; a function is found, and cannot be defined
again, as long as its scope is there. What fails changes nothing, and what is defined in a scope is
gone when it is left. -/
theorem Chain.operations_lawful :
    (∀ (operations : List Operation) (name : String),
      (∀ value, (reached operations).lookup name = .ok value ↔
        Shows (GivesVariable name) operations (some value)) ∧
      ((reached operations).lookup name = .error (.unassignedVariable name) ↔
        Shows (GivesVariable name) operations none) ∧
      ((reached operations).lookup name = .error (.undefinedVariable name) ↔
        ∀ level slot, ¬ Stands (GivesVariable name) operations level slot) ∧
      ((reached operations).lookup name = .error (.undefinedVariable name) ↔
        ∀ scope ∈ (reached operations).scopes, name ∉ scope.names)) ∧
    (∀ (operations : List Operation) (name : String),
      (∀ function, (reached operations).lookupFunction name = .ok function ↔
        Shows (GivesFunction name) operations function) ∧
      ((reached operations).lookupFunction name = .error (.undefinedFunction name) ↔
        ∀ level function, ¬ Stands (GivesFunction name) operations level function) ∧
      ((reached operations).lookupFunction name = .error (.undefinedFunction name) ↔
        ∀ scope ∈ (reached operations).scopes, scope.function? name = none)) ∧
    (∀ (chain : Chain) (name : String) (value : Value),
      ((∃ after, chain.assign name value = .ok after) ↔
        ∃ scope ∈ chain.scopes, name ∈ scope.names) ∧
      ∀ after, chain.assign name value = .ok after →
        ∃ inner scope changed outer, Assigns name value inner scope changed outer chain after ∧
          (∀ other, other ≠ name → after.lookup other = chain.lookup other) ∧
          (∀ function, after.lookupFunction function = chain.lookupFunction function) ∧
          (outer ≠ [] → pop^[inner.length + 1] after = pop^[inner.length + 1] chain)) ∧
    (∀ (chain : Chain) (name : String),
      (∀ value, (∃ fault, chain.defineVariable name value = .error fault) ↔
        name ∈ chain.current.names) ∧
      ∀ function, (∃ fault, chain.defineFunction name function = .error fault) ↔
        chain.current.function? name ≠ none) ∧
    (∀ (operations : List Operation) (name : String),
      (reached operations).outer.length = depth operations ∧
      (∀ value, (∃ fault, (reached operations).defineVariable name value = .error fault) ↔
        ∃ slot, Stands (GivesVariable name) operations (depth operations) slot) ∧
      ∀ function, (∃ fault, (reached operations).defineFunction name function = .error fault) ↔
        ∃ bound, Stands (GivesFunction name) operations (depth operations) bound) ∧
    (∀ (chain changed : Chain) (name : String) (function : Function) (later : List Operation),
      chain.defineFunction name function = .ok changed →
      (∀ front, front <+: later →
        chain.outer.length ≤ (changed.afterAll front).outer.length) →
      (changed.afterAll later).outer.length = chain.outer.length →
        (changed.afterAll later).lookupFunction name = .ok function ∧
          ∀ other, ∃ fault, (changed.afterAll later).defineFunction name other = .error fault) ∧
    (∀ (chain : Chain) (operation : Operation) (fault : ScopeFault),
      chain.perform operation = .error fault → chain.after operation = chain) ∧
    (∀ (machine after : Machine) (reason : Interruption) (name : String),
      (∀ value, Exec.define name value machine = .error reason after → after = machine) ∧
      ∀ value, Exec.assign name value machine = .error reason after → after = machine) ∧
    (∀ (function : Function) (scope after : Scope) (error : LoadError),
      Session.loadDeclarations [function.declaration] scope = (.error error, after) →
        after = scope) ∧
    ∀ (chain : Chain) (operations : List Operation),
      (∀ operation ∈ operations, operation.isDefinition = true) →
        (chain.push.afterAll operations).pop = chain := by
  refine ⟨?_, ?_, ?_, ?_, ?_, ?_, ?_, ?_, ?_, ?_⟩
  · intro operations name
    exact ⟨lookup_eq_ok operations name, lookup_eq_unassigned operations name,
      undefined_iff_not_stands operations name, lookup_eq_undefined⟩
  · intro operations name
    exact ⟨lookupFunction_eq_ok operations name, lookupFunction_eq_undefined operations name,
      lookupFunction_eq_undefined_iff⟩
  · intro chain name value
    refine ⟨chain.assign_succeeds_iff name value, fun after assigned => ?_⟩
    obtain ⟨inner, scope, changed, outer, assigns⟩ := assigns_of_ok assigned
    exact ⟨inner, scope, changed, outer, assigns, fun _ => assigns.lookup_of_ne,
      assigns.lookupFunction, assigns.pop_iterate⟩
  · intro chain name
    exact ⟨chain.defineVariable_fails_iff name, chain.defineFunction_fails_iff name⟩
  · intro operations name
    rw [← outer_length_reached]
    refine ⟨rfl, fun value => ?_, fun function => ?_⟩
    · rw [defineVariable_fails_iff]
      exact (variables_tracked name).current_iff operations
    · rw [defineFunction_fails_iff]
      exact (functions_tracked name).current_iff operations
  · intro chain changed name function later
    exact lookupFunction_afterAll
  · intro chain operation fault failure
    exact after_of_error failure
  · intro machine after reason name
    refine ⟨fun value failed => ?_, fun value failed => ?_⟩
    · exact machine_of_failed (·.defineVariable name value)
        (Correspondence.define_apply name value) failed
    · exact machine_of_failed (·.assign name value) (Correspondence.assign_apply name value) failed
  · intro function scope after error failed
    exact Session.loadDeclarations_failed failed
  · intro chain operations definitions
    exact pop_afterAll_push definitions chain

namespace Chain

def shadowed (line : Nat) : Function := ⟨"f", [], ⟨"void", 0⟩, [], line, line⟩

/-- A variable with a value, hidden by one without, and a function hidden by another. -/
def shadowing : List Operation :=
  [.defineVariable "x" (some (.int 1)), .defineFunction "f" (shadowed 1), .push,
    .defineVariable "x" none, .defineFunction "f" (shadowed 2)]

private theorem shadowing_found {inner outer : List Scope} {scope : Scope}
    (found : (reached shadowing).Found "x" inner scope outer) : inner = [] ∧ outer ≠ [] := by
  have current : (reached shadowing).Found "x" [] ⟨[("x", none)], [("f", shadowed 2)]⟩
      [⟨[("x", some (.int 1))], [("f", shadowed 1)]⟩] :=
    ⟨rfl, by simp, by simp [Scope.names, Scope.slot?]⟩
  have level : outer.length = 1 := found.level_unique current
  have whole := congrArg List.length found.parts
  rw [List.length_append, List.length_cons, level] at whole
  change 2 = _ at whole
  exact ⟨List.eq_nil_of_length_eq_zero (by omega), List.ne_nil_of_length_pos (by omega)⟩

/-- A variable without a value hides the one further out, and a function the other one. The
variable can be assigned, which shows neither under another name nor once its scope is left; neither
can be defined again; the function further out is found when the inner one is gone; and a third
variable of the name is gone when its scope is left. -/
theorem shadowing_lawful :
    Shows (GivesVariable "x") shadowing none ∧
    Shows (GivesFunction "f") shadowing (shadowed 2) ∧
    (∃ after, (reached shadowing).assign "x" (.int 5) = .ok after ∧
      after.lookup "y" = .error (.undefinedVariable "y") ∧ after.pop.lookup "x" = .ok (.int 1)) ∧
    (∃ bound, Stands (GivesFunction "f") shadowing 1 bound) ∧
    (∃ changed, (root Scope.empty).defineFunction "f" (shadowed 1) = .ok changed ∧
      (changed.afterAll [.push, .defineFunction "f" (shadowed 2), .pop]).lookupFunction "f" =
        .ok (shadowed 1)) ∧
    (reached shadowing).after (.defineVariable "x" none) = reached shadowing ∧
    (∃ reason after, Exec.define "x" none ⟨reached shadowing, Console.empty⟩ =
      .error reason after ∧ after.chain = reached shadowing) ∧
    ((reached shadowing).push.afterAll [.defineVariable "x" (some (.int 7))]).pop =
      reached shadowing := by
  obtain ⟨lookups, functions, assigns, _, taken, stays, fails, machines, _, definitions⟩ :=
    operations_lawful
  refine ⟨(lookups shadowing "x").2.1.mp rfl, ((functions shadowing "f").1 _).mp rfl, ?_, ?_, ?_,
    fails _ _ _ rfl, ?_, ?_⟩
  · obtain ⟨succeeds, changes⟩ := assigns (reached shadowing) "x" (.int 5)
    obtain ⟨after, assigned⟩ := succeeds.mpr
      ⟨⟨[("x", none)], [("f", shadowed 2)]⟩, List.mem_cons_self,
        by simp [Scope.names, Scope.slot?]⟩
    obtain ⟨inner, scope, changed, outer, change, others, _, left⟩ := changes after assigned
    obtain ⟨rfl, around⟩ := shadowing_found change.found
    refine ⟨after, assigned, others "y" (by decide), ?_⟩
    have popped : after.pop = (reached shadowing).pop := left around
    rw [popped]
    rfl
  · exact ((taken shadowing "f").2.2 (shadowed 3)).mp ⟨_, rfl⟩
  · have found := stays (root Scope.empty) _ "f" (shadowed 1)
      [.push, .defineFunction "f" (shadowed 2), .pop] rfl (fun _ _ => Nat.zero_le _) rfl
    exact ⟨_, rfl, found.1⟩
  · have unchanged := (machines ⟨reached shadowing, Console.empty⟩ _ _ "x").1 none rfl
    exact ⟨_, _, rfl, congrArg Machine.chain unchanged⟩
  · exact definitions _ _ (by simp [Operation.isDefinition])

end Chain

end Scriptlet
