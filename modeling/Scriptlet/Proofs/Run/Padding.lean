import Scriptlet.Proofs.Run.Correspondence

/-! An empty scope in a chain cannot be noticed by anything that runs inside of it, nor by
statements that run in it and define nothing there. -/
namespace Scriptlet

/-- Statements that define nothing in the scope in which they run. -/
inductive Stmt.Quiet : Stmt → Prop where
  | block {statements : List Stmt} {line : Nat} : Quiet (.block statements line)
  | evaluate {expression : Expr} {line : Nat} : Quiet (.evaluate expression line)
  | returns {value : Option Expr} {line : Nat} : Quiet (.returns value line)
  | branch {condition : Expr} {whenTrue : Stmt} {whenFalse : Option Stmt} {line : Nat}
      (first : Quiet whenTrue) (second : ∀ other ∈ whenFalse, Quiet other) :
      Quiet (.branch condition whenTrue whenFalse line)
  | loop {condition : Expr} {body : Stmt} {stepped : Bool} {line : Nat} (nested : Quiet body)
      (step : ∀ increment ∈ Run.increment? stepped body, Quiet increment) :
      Quiet (.loop condition body stepped line)
  | leave {line : Nat} : Quiet (.leave line)
  | proceed {line : Nat} : Quiet (.proceed line)
  | function {name : String} {parameters : List Parameter} {result : DeclaredType}
      {body : List Stmt} {bodyLine line : Nat} :
      Quiet (.function name parameters result body bodyLine line)

namespace Chain

theorem ext_scopes {chain other : Chain} (same : chain.scopes = other.scopes) : chain = other := by
  cases chain
  cases other
  simp_all [scopes]

theorem scopes_pop {chain : Chain} {scopes : List Scope} (same : chain.outer = scopes)
    (some : scopes ≠ []) : chain.pop.scopes = scopes := by
  obtain ⟨current, outer⟩ := chain
  obtain ⟨next, rest, rfl⟩ := List.exists_cons_of_ne_nil some
  obtain rfl : outer = next :: rest := same
  rfl

theorem lookup_of_findSome {chain other : Chain} {name : String}
    (same : chain.scopes.findSome? (·.slot? name) = other.scopes.findSome? (·.slot? name)) :
    chain.lookup name = other.lookup name := by
  rw [lookup, lookup, same]

/-- Assignment looks at the current scope like at all others. -/
theorem assign_eq (chain : Chain) (name : String) (value : Value) :
    (∃ changed, chain.assign name value = .ok changed ∧
      assignIn? name value chain.scopes = some changed.scopes) ∨
      chain.assign name value = .error (.undefinedVariable name) ∧
        assignIn? name value chain.scopes = none := by
  obtain ⟨current, outer⟩ := chain
  simp only [assign, scopes, assignIn?]
  cases current.assign? name value with
  | some changed => exact .inl ⟨_, rfl, rfl⟩
  | none =>
    cases assignIn? name value outer with
    | some changed => exact .inl ⟨_, rfl, rfl⟩
    | none => exact .inr ⟨rfl, rfl⟩

theorem assignIn?_append (name : String) (value : Value) (front back : List Scope) :
    assignIn? name value (front ++ back) =
      match assignIn? name value front with
      | some changed => some (changed ++ back)
      | none => (assignIn? name value back).map (front ++ ·) := by
  induction front with
  | nil => simp [assignIn?]
  | cons first rest ih =>
    simp only [List.cons_append, assignIn?, ih]
    cases first.assign? name value with
    | some changed => rfl
    | none =>
      cases assignIn? name value rest with
      | some changed => rfl
      | none =>
        simp only [Option.map_none, Option.map_map]
        rfl

private theorem length_assignIn? {name : String} {value : Value} {before after : List Scope}
    (changed : assignIn? name value before = some after) : after.length = before.length := by
  induction before generalizing after with
  | nil => cases changed
  | cons first rest ih =>
    rw [assignIn?] at changed
    split at changed
    · cases changed
      rfl
    · obtain ⟨others, found, rfl⟩ := Option.map_eq_some_iff.mp changed
      rw [List.length_cons, List.length_cons, ih found]

end Chain

namespace Run

private theorem Agree.symm {alike : Chain → Chain → Prop} {first second : Except ScopeFault Chain}
    (agree : Agree alike first second) :
    Agree (fun chain other => alike other chain) second first := by
  cases first <;> cases second
  case error.error => exact Eq.symm agree
  case ok.ok => exact agree
  all_goals exact agree.elim

namespace ScopeRelation

/-- A relation read from right to left. -/
def symm (relation : ScopeRelation) : ScopeRelation where
  alike depth chain other := relation.alike depth other chain
  push := relation.push
  pop := relation.pop
  lookup name alike := (relation.lookup name alike).symm
  lookupFunction name alike := (relation.lookupFunction name alike).symm
  assign name value alike := (relation.assign name value alike).symm
  define name value alike := (relation.define name value alike).symm

private theorem agree_self {alike : Chain → Chain → Prop} (same : ∀ chain, alike chain chain)
    (result : Except ScopeFault Chain) : Agree alike result result := by
  cases result with
  | ok chain => exact same chain
  | error fault => rfl

/-- Chains that are the same. -/
def identity : ScopeRelation where
  alike _ chain other := chain = other
  push := congrArg Chain.push
  pop := congrArg Chain.pop
  lookup name same := congrArg (Chain.lookup · name) same
  lookupFunction name same := congrArg (Chain.lookupFunction · name) same
  assign name value same := by
    subst same
    exact agree_self (fun _ => rfl) _
  define name value same := by
    subst same
    exact agree_self (fun _ => rfl) _

/-- The left chain is the right one with an empty scope more, behind as many scopes as the
depth says. -/
def Padded (depth : Nat) (chain other : Chain) : Prop :=
  ∃ front back, front.length = depth ∧ back ≠ [] ∧ other.scopes = front ++ back ∧
    chain.scopes = front ++ Scope.empty :: back

private theorem padded_push (chain : Chain) : Padded 0 chain.push chain :=
  ⟨[], chain.scopes, rfl, by simp [Chain.scopes], rfl, rfl⟩

private theorem eq_push_of_padded {chain other : Chain} (padded : Padded 0 chain other) :
    chain = other.push := by
  obtain ⟨front, back, length, _, same, more⟩ := padded
  obtain rfl := List.length_eq_zero_iff.mp length
  apply Chain.ext_scopes
  rw [more, Chain.push, same]
  rfl

theorem Padded.pop {depth : Nat} {chain other : Chain} (padded : Padded (depth + 1) chain other) :
    Padded depth chain.pop other.pop := by
  obtain ⟨front, back, length, some, same, more⟩ := padded
  obtain ⟨current, front, rfl⟩ := List.exists_cons_of_length_eq_add_one length
  have outer : other.outer = front ++ back := (List.cons.inj same).2
  have padding : chain.outer = front ++ Scope.empty :: back := (List.cons.inj more).2
  exact ⟨front, back, Nat.succ.inj length, some, Chain.scopes_pop outer (by simp [some]),
    Chain.scopes_pop padding (by simp)⟩

theorem Padded.assign {depth : Nat} {chain other : Chain} (padded : Padded depth chain other)
    (name : String) (value : Value) :
    Agree (Padded depth) (chain.assign name value) (other.assign name value) := by
  obtain ⟨front, back, length, some, same, more⟩ := padded
  have left := chain.assign_eq name value
  have right := other.assign_eq name value
  rw [more, Chain.assignIn?_append] at left
  rw [same, Chain.assignIn?_append] at right
  have empty : Chain.assignIn? name value (Scope.empty :: back) =
      (Chain.assignIn? name value back).map (Scope.empty :: ·) := rfl
  cases inFront : Chain.assignIn? name value front with
  | some changed =>
    simp only [inFront, reduceCtorEq, and_false, or_false, Option.some.injEq] at left right
    obtain ⟨longer, first, scopes⟩ := left
    obtain ⟨shorter, second, others⟩ := right
    rw [first, second]
    exact ⟨changed, back, by rw [Chain.length_assignIn? inFront, length], some, others.symm,
      scopes.symm⟩
  | none =>
    simp only [inFront, empty] at left right
    cases behind : Chain.assignIn? name value back with
    | some changed =>
      simp only [behind, Option.map_some, reduceCtorEq, and_false, or_false,
        Option.some.injEq] at left right
      obtain ⟨longer, first, scopes⟩ := left
      obtain ⟨shorter, second, others⟩ := right
      rw [first, second]
      refine ⟨front, changed, length, ?_, others.symm, scopes.symm⟩
      exact List.ne_nil_of_length_pos
        (by rw [Chain.length_assignIn? behind]; exact List.length_pos_iff.mpr some)
    | none =>
      simp only [behind, Option.map_none, reduceCtorEq, and_false, exists_false, and_true,
        false_or] at left right
      rw [left, right]
      rfl

/-- One empty scope more or less makes chains that are alike. -/
def padded : ScopeRelation where
  alike := Padded
  push := by
    rintro depth chain other ⟨front, back, length, some, same, more⟩
    refine ⟨Scope.empty :: front, back, by rw [List.length_cons, length], some, ?_, ?_⟩
    · rw [Chain.push, ← List.cons_append.symm, ← same]
      rfl
    · rw [Chain.push, List.cons_append, ← more]
      rfl
  pop := Padded.pop
  lookup := by
    rintro depth chain other name ⟨front, back, length, some, same, more⟩
    apply Chain.lookup_of_findSome
    rw [same, more, List.findSome?_append, List.findSome?_append]
    rfl
  lookupFunction := by
    rintro depth chain other name ⟨front, back, length, some, same, more⟩
    rw [Chain.lookupFunction, Chain.lookupFunction, same, more, List.findSome?_append,
      List.findSome?_append]
    rfl
  assign name value alike := alike.assign name value
  define := by
    rintro depth chain other name value ⟨front, back, length, some, same, more⟩
    obtain ⟨current, front, rfl⟩ := List.exists_cons_of_length_eq_add_one length
    obtain ⟨first, outer⟩ := chain
    obtain ⟨second, others⟩ := other
    obtain ⟨rfl, rfl⟩ := List.cons.inj same
    obtain ⟨rfl, rfl⟩ := List.cons.inj more
    rw [Chain.defineVariable, Chain.defineVariable]
    cases Scope.defineVariable _ name value with
    | ok changed => exact ⟨changed :: front, back, length, some, rfl, rfl⟩
    | error fault => rfl

/-- The correspondence in which all errors are the same, and in which anything runs below
depth zero and quiet statements at it. -/
def quiet (relation : ScopeRelation) : Correspondence where
  toScopeRelation := relation
  errors error other := error = other
  admits depth _ statement := depth = 0 → statement.Quiet
  ends _ _ := True
  located line same := congrArg (Located.withLine · line) same
  raised _ _ := rfl
  escaped _ _ _ := rfl
  uncontrolled _ := trivial
  callable _ _ _ _ deep := absurd deep (Nat.succ_ne_zero _)
  block _ _ _ deep := absurd deep (Nat.succ_ne_zero _)
  declare admitted atZero := by cases admitted atZero
  whenTrue admitted atZero := by
    cases admitted atZero with
    | branch first second => exact first
  whenFalse admitted atZero := by
    cases admitted atZero with
    | branch first second => exact second _ rfl
  body admitted atZero := by
    cases admitted atZero with
    | loop nested step => exact nested
  increment admitted present atZero := by
    cases admitted atZero with
    | loop nested step => exact step _ present
  leave _ := trivial
  proceed _ := trivial

end ScopeRelation

theorem identity_machines (depth : Nat) : ScopeRelation.identity.machines depth = Eq := by
  funext first second
  cases first
  cases second
  simp [ScopeRelation.machines, ScopeRelation.identity]

theorem symm_identity_machines (depth : Nat) : ScopeRelation.identity.symm.machines depth = Eq := by
  funext first second
  cases first
  cases second
  simp [ScopeRelation.machines, ScopeRelation.identity, ScopeRelation.symm, eq_comm]

variable {α : Type} {errors : Error → Error → Prop} {values : α → α → Prop} {left right : Exec α}

private theorem pop_of_padded {machine other : Machine}
    (machines : ScopeRelation.padded.machines 0 machine other) :
    { machine with chain := machine.chain.pop } = other := by
  have longer : machine.chain = other.chain.push := ScopeRelation.eq_push_of_padded machines.1
  rw [longer, machines.2, Chain.pop_push]

/-- A fresh scope in which nothing is defined may as well not be entered. -/
theorem Refines.dropScope
    (refines : Refines (ScopeRelation.padded.machines 0) errors values left right) :
    Refines Eq errors values (Exec.inScope left) right := by
  rintro machine _ rfl
  have matched := refines { machine with chain := machine.chain.push } machine
    ⟨ScopeRelation.padded_push _, rfl⟩
  rw [Exec.inScope]
  generalize left _ = outcome at matched
  generalize right _ = counterpart at matched ⊢
  cases matched with
  | unfinished => exact .unfinished
  | ok same machines => exact .ok same (pop_of_padded machines)
  | failed same machines => exact .failed same (pop_of_padded machines)

theorem Refines.addScope
    (refines : Refines (ScopeRelation.padded.symm.machines 0) errors values left right) :
    Refines Eq errors values left (Exec.inScope right) := by
  rintro machine _ rfl
  have matched := refines machine { machine with chain := machine.chain.push }
    ⟨ScopeRelation.padded_push _, rfl⟩
  rw [Exec.inScope]
  generalize left _ = outcome at matched ⊢
  generalize right _ = counterpart at matched
  cases matched with
  | unfinished => exact .unfinished
  | ok same machines => exact .ok same (pop_of_padded ⟨machines.1, machines.2.symm⟩).symm
  | failed same machines => exact .failed same (pop_of_padded ⟨machines.1, machines.2.symm⟩).symm

end Run

end Scriptlet
