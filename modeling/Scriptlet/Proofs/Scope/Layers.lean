import Scriptlet.Proofs.Run.Scoping

/-! The scopes of a chain as layers. A name is found in the innermost scope that defines it;
assigning changes that scope alone, and whatever a scope holds is gone once it is left. -/
namespace Scriptlet

namespace Scope

variable {scope : Scope} {name : String}

theorem not_mem_names : name ∉ scope.names ↔ scope.slot? name = none := by
  simp [names]

private theorem assign?_of_mem_names (defined : name ∈ scope.names) (value : Value) :
    ∃ changed, scope.assign? name value = some changed := by
  obtain ⟨slot, here⟩ := Option.ne_none_iff_exists'.mp defined
  rw [assign?, here]
  exact ⟨_, rfl⟩

end Scope

namespace Chain

/-- A name is found in a scope if that scope defines it and no scope further inside does. -/
structure Found (chain : Chain) (name : String) (inner : List Scope) (scope : Scope)
    (outer : List Scope) : Prop where
  parts : chain.scopes = inner ++ scope :: outer
  hidden : ∀ other ∈ inner, name ∉ other.names
  defined : name ∈ scope.names

variable {chain after : Chain} {name : String} {value : Value}

theorem exists_found_iff :
    (∃ inner scope outer, chain.Found name inner scope outer) ↔
      ∃ scope ∈ chain.scopes, name ∈ scope.names := by
  constructor
  · rintro ⟨inner, scope, outer, found⟩
    exact ⟨scope, by simp [found.parts], found.defined⟩
  · rintro ⟨scope, member, defined⟩
    obtain ⟨slot, first⟩ : ∃ slot, chain.scopes.findSome? (·.slot? name) = some slot := by
      rw [← Option.ne_none_iff_exists', Ne, List.findSome?_eq_none_iff]
      exact fun none => defined (none scope member)
    obtain ⟨inner, scope, outer, parts, here, hidden⟩ := List.findSome?_eq_some_iff.mp first
    refine ⟨inner, scope, outer, parts, ?_, ?_⟩
    · exact fun other inside => Scope.not_mem_names.mpr (hidden other inside)
    · exact ne_of_eq_of_ne here (Option.some_ne_none slot)

private theorem assignIn?_of_hidden {inner : List Scope}
    (hidden : ∀ other ∈ inner, name ∉ other.names)
    (value : Value) : assignIn? name value inner = none := by
  induction inner with
  | nil => rfl
  | cons first rest ih =>
    obtain ⟨absent, others⟩ := List.forall_mem_cons.mp hidden
    rw [assignIn?, Scope.assign?, Scope.not_mem_names.mp absent, ih others]
    rfl

/-- The one change that assigning makes: the scope in which the name is found holds the value,
with its other variables and its functions as they were, and so are all other scopes. -/
structure Assigns (name : String) (value : Value) (inner : List Scope) (scope changed : Scope)
    (outer : List Scope) (before after : Chain) : Prop where
  found : before.Found name inner scope outer
  scopes : after.scopes = inner ++ changed :: outer
  slots (other : String) : changed.slot? other =
    if other = name then some (some value) else scope.slot? other
  functions : changed.functions = scope.functions

theorem Found.assigns {inner outer : List Scope} {scope : Scope}
    (found : chain.Found name inner scope outer) (value : Value) :
    ∃ changed after, chain.assign name value = .ok after ∧
      Assigns name value inner scope changed outer chain after := by
  obtain ⟨changed, success⟩ := Scope.assign?_of_mem_names found.defined value
  have inside : assignIn? name value chain.scopes = some (inner ++ changed :: outer) := by
    rw [found.parts, assignIn?_append, assignIn?_of_hidden found.hidden, assignIn?, success]
    rfl
  rcases chain.assign_eq name value with ⟨after, assigned, same⟩ | ⟨_, missing⟩
  · refine ⟨changed, after, assigned, found, ?_, ?_, Scope.functions_assign? success⟩
    · exact Option.some.inj (same.symm.trans inside)
    · intro other
      obtain ⟨slot, here⟩ := Option.ne_none_iff_exists'.mp found.defined
      rw [Scope.slot?_assign? success, here]
      rfl
  · rw [inside] at missing
    cases missing

/-- Assigning succeeds exactly where some scope defines the name. -/
theorem assign_succeeds_iff (chain : Chain) (name : String) (value : Value) :
    (∃ after, chain.assign name value = .ok after) ↔
      ∃ scope ∈ chain.scopes, name ∈ scope.names := by
  rw [← exists_found_iff]
  constructor
  · rintro ⟨after, assigned⟩
    by_contra unfound
    rw [exists_found_iff] at unfound
    have hidden := assignIn?_of_hidden (fun other member defined =>
      unfound ⟨other, member, defined⟩) value
    rcases chain.assign_eq name value with ⟨_, _, inside⟩ | ⟨missing, _⟩
    · rw [hidden] at inside
      cases inside
    · rw [assigned] at missing
      cases missing
  · rintro ⟨inner, scope, outer, found⟩
    obtain ⟨_, after, assigned, _⟩ := found.assigns value
    exact ⟨after, assigned⟩

theorem assigns_of_ok (assigned : chain.assign name value = .ok after) :
    ∃ inner scope changed outer, Assigns name value inner scope changed outer chain after := by
  obtain ⟨inner, scope, outer, found⟩ :=
    exists_found_iff.mpr ((assign_succeeds_iff chain name value).mp ⟨after, assigned⟩)
  obtain ⟨changed, other, same, assigns⟩ := found.assigns value
  obtain rfl := Except.ok.inj (assigned.symm.trans same)
  exact ⟨inner, scope, changed, outer, assigns⟩

/-- Leaving as many scopes as stand in front of the rest of a chain. -/
theorem scopes_pop_iterate {front rest : List Scope} (parts : chain.scopes = front ++ rest)
    (some : rest ≠ []) : (pop^[front.length] chain).scopes = rest := by
  induction front generalizing chain with
  | nil => exact parts
  | cons first more ih =>
    have outer : chain.outer = more ++ rest := (List.cons.inj parts).2
    rw [List.length_cons, Function.iterate_succ_apply]
    exact ih (scopes_pop outer (List.append_ne_nil_of_right_ne_nil more some))

namespace Assigns

variable {inner outer : List Scope} {scope changed : Scope} {before : Chain}
variable (assigns : Assigns name value inner scope changed outer before after)

include assigns

theorem lookup_of_ne {other : String} (different : other ≠ name) :
    after.lookup other = before.lookup other := by
  apply lookup_of_findSome
  have same := assigns.slots other
  rw [if_neg different] at same
  simp only [assigns.scopes, assigns.found.parts, List.findSome?_append, List.findSome?_cons, same]

theorem lookupFunction (other : String) :
    after.lookupFunction other = before.lookupFunction other := by
  have same : changed.function? other = scope.function? other := by
    rw [Scope.function?, Scope.function?, assigns.functions]
  simp only [Chain.lookupFunction, assigns.scopes, assigns.found.parts, List.findSome?_append,
    List.findSome?_cons, same]

/-- Once the changed scope is left, nothing is left of the change. -/
theorem pop_iterate (some : outer ≠ []) :
    pop^[inner.length + 1] after = pop^[inner.length + 1] before := by
  apply ext_scopes
  have first : after.scopes = (inner ++ [changed]) ++ outer := by simp [assigns.scopes]
  have second : before.scopes = (inner ++ [scope]) ++ outer := by simp [assigns.found.parts]
  have popped := scopes_pop_iterate first some
  have kept := scopes_pop_iterate second some
  rw [List.length_append, List.length_singleton] at popped kept
  rw [popped, kept]

end Assigns

theorem defineVariable_fails_iff (chain : Chain) (name : String) (value : Option Value) :
    (∃ fault, chain.defineVariable name value = .error fault) ↔ name ∈ chain.current.names := by
  rw [defineVariable, Scope.defineVariable, Scope.names, Set.mem_ofPred_eq]
  cases chain.current.slot? name <;> simp [Except.map]

theorem defineFunction_fails_iff (chain : Chain) (name : String) (function : Function) :
    (∃ fault, chain.defineFunction name function = .error fault) ↔
      chain.current.function? name ≠ none := by
  rw [defineFunction, Scope.defineFunction]
  cases chain.current.function? name <;> simp [Except.map]

section Levels

variable {α : Type} {read : Scope → Option α} {entry : α}

/-- What is read in the scope that has this many scopes around it. -/
def heldAt (read : Scope → Option α) : List Scope → Nat → Option α
  | [], _ => none
  | scope :: outer, level => if level = outer.length then read scope else heldAt read outer level

theorem heldAt_of_length_le {scopes : List Scope} {level : Nat} (high : scopes.length ≤ level) :
    heldAt read scopes level = none := by
  induction scopes with
  | nil => rfl
  | cons scope outer ih =>
    rw [List.length_cons] at high
    rw [heldAt, if_neg (by omega), ih (by omega)]

/-- A scope in which nothing is read makes no difference. -/
theorem heldAt_cons_of_none {scope : Scope} {outer : List Scope} (absent : read scope = none)
    (level : Nat) : heldAt read (scope :: outer) level = heldAt read outer level := by
  rw [heldAt]
  split
  · rename_i current
    rw [absent, heldAt_of_length_le current.ge]
  · rfl

private theorem heldAt_append_of_hidden {inner : List Scope}
    (hidden : ∀ other ∈ inner, read other = none) (scopes : List Scope) (level : Nat) :
    heldAt read (inner ++ scopes) level = heldAt read scopes level := by
  induction inner with
  | nil => rfl
  | cons first rest ih =>
    obtain ⟨absent, others⟩ := List.forall_mem_cons.mp hidden
    rw [List.cons_append, heldAt_cons_of_none absent, ih others]

theorem heldAt_replaced {scope changed : Scope} (same : read changed = read scope)
    (inner outer : List Scope) :
    heldAt read (inner ++ changed :: outer) = heldAt read (inner ++ scope :: outer) := by
  funext level
  induction inner with
  | nil => rw [List.nil_append, List.nil_append, heldAt, heldAt, same]
  | cons first rest ih =>
    simp only [List.cons_append, heldAt, List.length_append, List.length_cons, ih]

/-- What is found first, from the inside outward, is what the innermost of the scopes holds that
hold anything. -/
theorem findSome?_eq_some_iff (scopes : List Scope) (entry : α) :
    scopes.findSome? read = some entry ↔
      ∃ level, heldAt read scopes level = some entry ∧
        ∀ further, level < further → heldAt read scopes further = none := by
  induction scopes with
  | nil => simp [heldAt]
  | cons scope outer ih =>
    rw [List.findSome?_cons]
    cases here : read scope with
    | none => simp only [ih, heldAt_cons_of_none here]
    | some found =>
      have current : heldAt read (scope :: outer) outer.length = some found := by
        rw [heldAt, if_pos rfl, here]
      constructor
      · rintro ⟨⟩
        exact ⟨outer.length, current, fun further inside => heldAt_of_length_le inside⟩
      · rintro ⟨level, held, innermost⟩
        -- Something is found here, so no scope further out is the innermost one.
        rcases Nat.lt_trichotomy level outer.length with below | rfl | above
        · rw [innermost _ below] at current
          cases current
        · exact current.symm.trans held
        · rw [heldAt_of_length_le above] at held
          cases held

theorem findSome?_eq_none_iff (scopes : List Scope) :
    scopes.findSome? read = none ↔ ∀ level, heldAt read scopes level = none := by
  constructor
  · intro none level
    induction scopes with
    | nil => rfl
    | cons scope outer ih =>
      obtain ⟨absent, others⟩ := List.forall_mem_cons.mp (List.findSome?_eq_none_iff.mp none)
      rw [heldAt_cons_of_none absent, ih (List.findSome?_eq_none_iff.mpr others)]
  · intro none
    by_contra some
    obtain ⟨entry, found⟩ := Option.ne_none_iff_exists'.mp some
    obtain ⟨level, held, _⟩ := (findSome?_eq_some_iff scopes entry).mp found
    cases (none level).symm.trans held

theorem heldAt_current (read : Scope → Option α) (chain : Chain) :
    heldAt read chain.scopes chain.outer.length = read chain.current := by
  rw [scopes, heldAt, if_pos rfl]

/-- One scope holds something new, and what is read in all others is as it was. -/
def Gave (read : Scope → Option α) (level : Nat) (entry : α) (before after : Chain) : Prop :=
  ∀ place, heldAt read after.scopes place =
    if place = level then some entry else heldAt read before.scopes place

theorem gave_current {current : Scope} (holds : read current = some entry) :
    Gave read chain.outer.length entry chain { chain with current } := by
  intro place
  rw [scopes, scopes, heldAt, heldAt, holds]
  split <;> rfl

end Levels

namespace Found

variable {inner outer others further : List Scope} {scope other : Scope}

theorem heldAt_level (found : chain.Found name inner scope outer) :
    heldAt (·.slot? name) chain.scopes outer.length = scope.slot? name := by
  have hidden := fun other member => Scope.not_mem_names.mp (found.hidden other member)
  rw [found.parts, heldAt_append_of_hidden hidden, heldAt, if_pos rfl]

theorem heldAt_inside (found : chain.Found name inner scope outer) {level : Nat}
    (inside : outer.length < level) : heldAt (·.slot? name) chain.scopes level = none := by
  have hidden := fun other member => Scope.not_mem_names.mp (found.hidden other member)
  rw [found.parts, heldAt_append_of_hidden hidden]
  exact heldAt_of_length_le inside

/-- A name is found at one level only. -/
theorem level_unique (first : chain.Found name inner scope outer)
    (second : chain.Found name others other further) : outer.length = further.length := by
  rcases Nat.lt_trichotomy outer.length further.length with below | same | above
  · exact absurd (second.heldAt_level.symm.trans (first.heldAt_inside below)) second.defined
  · exact same
  · exact absurd (first.heldAt_level.symm.trans (second.heldAt_inside above)) first.defined

end Found

theorem Assigns.gave {inner outer : List Scope} {scope changed : Scope} {before : Chain}
    (assigns : Assigns name value inner scope changed outer before after) :
    Gave (·.slot? name) outer.length (some value) before after := by
  intro place
  have hidden := fun other member => Scope.not_mem_names.mp (assigns.found.hidden other member)
  rw [assigns.scopes, assigns.found.parts, heldAt_append_of_hidden hidden,
    heldAt_append_of_hidden hidden, heldAt, heldAt, assigns.slots, if_pos rfl]
  split <;> rfl

end Chain

end Scriptlet
