import Scriptlet.Proofs.Program.Induction
import Scriptlet.Proofs.Run.Padding

/-! Runs that need different numbers of steps. An action is met by a run if every outcome that it
reaches is reached by the run as well, from some number of steps on. The machines of the two
have the same variables and the same output, and functions that may differ. -/
namespace Scriptlet

section Relations

variable (functions : Function → Function → Prop)

/-- Scopes with the same variables and, under each name, related functions. -/
structure Scope.Related (scope other : Scope) : Prop where
  slots : scope.slots = other.slots
  bound (name : String) : Option.Rel functions (scope.function? name) (other.function? name)

def Chain.Related (chain other : Chain) : Prop :=
  List.Forall₂ (Scope.Related functions) chain.scopes other.scopes

structure Run.Machine.Related (machine other : Machine) : Prop where
  chains : machine.chain.Related functions other.chain
  consoles : machine.console = other.console

end Relations

variable {functions : Function → Function → Prop}

namespace Scope.Related

variable {scope other : Scope}

theorem slot? (related : scope.Related functions other) (name : String) :
    scope.slot? name = other.slot? name := by
  rw [Scope.slot?, Scope.slot?, related.slots]

theorem withSlots (related : scope.Related functions other) (slots : List (String × Option Value)) :
    Related functions { scope with slots } { other with slots } :=
  ⟨rfl, related.bound⟩

theorem assign? (related : scope.Related functions other) (name : String) (value : Value) :
    Option.Rel (Related functions) (scope.assign? name value) (other.assign? name value) := by
  rw [Scope.assign?, Scope.assign?, related.slot?, related.slots]
  cases other.slot? name with
  | none => exact .none
  | some slot => exact .some (related.withSlots _)

theorem flip (related : scope.Related functions other) :
    other.Related (flip functions) scope where
  slots := related.slots.symm
  bound name := optionRel_flip (related.bound name)

end Scope.Related

namespace Chain.Related

variable {chain other : Chain}

theorem push (related : chain.Related functions other) : chain.push.Related functions other.push :=
  .cons ⟨rfl, fun _ => .none⟩ related

theorem pop (related : chain.Related functions other) : chain.pop.Related functions other.pop := by
  obtain ⟨current, outer⟩ := chain
  obtain ⟨twin, others⟩ := other
  cases related with
  | cons first rest =>
    cases rest with
    | nil => exact .cons first .nil
    | cons second rest => exact .cons second rest

theorem current (related : chain.Related functions other) :
    chain.current.Related functions other.current := by
  cases related with
  | cons first _ => exact first

theorem lookup (related : chain.Related functions other) (name : String) :
    chain.lookup name = other.lookup name := by
  apply Chain.lookup_of_findSome
  unfold Related at related
  generalize chain.scopes = scopes at related ⊢
  generalize other.scopes = others at related ⊢
  induction related with
  | nil => rfl
  | cons first _ ih => rw [List.findSome?_cons, List.findSome?_cons, first.slot?, ih]

theorem bound (related : chain.Related functions other) (name : String) :
    Option.Rel functions (chain.scopes.findSome? (·.function? name))
      (other.scopes.findSome? (·.function? name)) := by
  unfold Related at related
  generalize chain.scopes = scopes at related ⊢
  generalize other.scopes = others at related ⊢
  induction related with
  | nil => exact .none
  | cons first _ ih =>
    have found := first.bound name
    rw [List.findSome?_cons, List.findSome?_cons]
    generalize Scope.function? _ name = left at found
    generalize Scope.function? _ name = right at found
    cases found with
    | some same => exact .some same
    | none => exact ih

theorem assignIn? {scopes others : List Scope}
    (related : List.Forall₂ (Scope.Related functions) scopes others) (name : String)
    (value : Value) :
    Option.Rel (List.Forall₂ (Scope.Related functions)) (Chain.assignIn? name value scopes)
      (Chain.assignIn? name value others) := by
  induction related with
  | nil => exact .none
  | @cons scope other scopes others first rest ih =>
    have here := first.assign? name value
    rw [Chain.assignIn?, Chain.assignIn?]
    generalize scope.assign? name value = left at here
    generalize other.assign? name value = right at here
    cases here with
    | some changed => exact .some (.cons changed rest)
    | none =>
      simp only
      generalize Chain.assignIn? name value scopes = left at ih
      generalize Chain.assignIn? name value others = right at ih
      cases ih with
      | some changed => exact .some (.cons first changed)
      | none => exact .none

/-- Assigning gives related chains, or fails in both. -/
theorem assign (related : chain.Related functions other) (name : String) (value : Value) :
    Run.Agree (Related functions) (chain.assign name value) (other.assign name value) := by
  have first := chain.assign_eq name value
  have second := other.assign_eq name value
  have scopes := assignIn? related name value
  generalize Chain.assignIn? name value chain.scopes = left at first scopes
  generalize Chain.assignIn? name value other.scopes = right at second scopes
  cases scopes with
  | some changed =>
    simp only [reduceCtorEq, and_false, or_false, Option.some.injEq] at first second
    obtain ⟨_, first, rfl⟩ := first
    obtain ⟨_, second, rfl⟩ := second
    rw [first, second]
    exact changed
  | none =>
    simp only [reduceCtorEq, and_false, exists_false, and_true, false_or] at first second
    rw [first, second]
    rfl

theorem define (related : chain.Related functions other) (name : String) (value : Option Value) :
    Run.Agree (Related functions) (chain.defineVariable name value)
      (other.defineVariable name value) := by
  obtain ⟨current, outer⟩ := chain
  obtain ⟨twin, others⟩ := other
  cases related with
  | cons first rest =>
    have here : current.Related functions twin := first
    rw [Chain.defineVariable, Chain.defineVariable, Scope.defineVariable, Scope.defineVariable,
      here.slot?, here.slots]
    cases twin.slot? name with
    | some slot => rfl
    | none => exact .cons (here.withSlots _) rest

end Chain.Related

namespace Run

theorem ok_ne_unfinished {α : Type} (value : α) (machine after : Machine) :
    (.ok value machine : Outcome α) ≠ .error .unfinished after := by
  simp

theorem failed_ne_unfinished {α : Type} (error : Error) (machine after : Machine) :
    (.error (.failed error) machine : Outcome α) ≠ .error .unfinished after := by
  simp

/-- The outcome of a run from some number of steps on. -/
def Settles {α : Type} (run : Nat → Exec α) (machine : Machine) (outcome : Outcome α) : Prop :=
  ∃ enough, ∀ steps ≥ enough, run steps machine = outcome

/-- From related machines, the run settles on an outcome that matches the one of the action, if
the action ends. -/
def MetBy (functions : Function → Function → Prop) {α β : Type} (values : α → β → Prop)
    (action : Exec α) (run : Nat → Exec β) : Prop :=
  ∀ first second, Machine.Related functions first second → ∃ outcome,
    Outcome.Matches (Machine.Related functions) Eq values (action first) outcome ∧
      ((∀ after, action first ≠ .error .unfinished after) → Settles run second outcome)

namespace MetBy

variable {α β γ δ : Type} {values : α → β → Prop} {results : γ → δ → Prop} {action : Exec α}
  {run : Nat → Exec β}

/-- An action that does not look at the number of steps. -/
theorem always {other : Exec β}
    (refines : Refines (Machine.Related functions) Eq values action other) :
    MetBy functions values action fun _ => other :=
  fun first second machines => ⟨_, refines first second machines, fun _ => ⟨0, fun _ _ => rfl⟩⟩

theorem pure {value : α} {other : β} (same : values value other) :
    MetBy functions values (pure value) fun _ => Pure.pure other :=
  always (.pure same)

theorem unfinished : MetBy functions values Exec.unfinished run :=
  fun first second _ => ⟨run 0 second, .unfinished, fun ended => absurd rfl (ended first)⟩

theorem failAt {line : Nat} {cause : Cause} :
    MetBy functions values (Exec.failAt line cause) fun _ => Exec.failAt line cause :=
  always (.failAt rfl)

theorem bind {next : α → Exec γ} {follow : Nat → β → Exec δ}
    (first : MetBy functions values action run)
    (rest : ∀ value other, values value other →
      MetBy functions results (next value) fun steps => follow steps other) :
    MetBy functions results (action >>= next) fun steps => run steps >>= follow steps := by
  intro machine other machines
  obtain ⟨outcome, matched, settles⟩ := first machine other machines
  simp only [Settles, bind_apply]
  generalize action machine = reached at matched settles
  cases matched with
  | unfinished => exact ⟨.error .unfinished other, .unfinished, fun ended => absurd rfl (ended _)⟩
  | @ok value copy middle after same between =>
    obtain ⟨enough, settled⟩ := settles (ok_ne_unfinished _ _)
    obtain ⟨final, matched, ends⟩ := rest value copy same middle after between
    refine ⟨final, matched, fun ended => ?_⟩
    obtain ⟨later, follows⟩ := ends ended
    refine ⟨max enough later, fun steps more => ?_⟩
    rw [settled steps (Nat.le_trans (Nat.le_max_left ..) more)]
    exact follows steps (Nat.le_trans (Nat.le_max_right ..) more)
  | failed same between =>
    obtain ⟨enough, settled⟩ := settles (failed_ne_unfinished _ _)
    refine ⟨_, .failed same between, fun _ => ⟨enough, fun steps more => ?_⟩⟩
    rw [settled steps more]

/-- Both go on with the same value. -/
theorem bindSame {run : Nat → Exec α} {next : α → Exec γ} {follow : Nat → α → Exec δ}
    (first : MetBy functions Eq action run)
    (rest : ∀ value, MetBy functions results (next value) fun steps => follow steps value) :
    MetBy functions results (action >>= next) fun steps => run steps >>= follow steps := by
  refine first.bind ?_
  rintro value _ rfl
  exact rest value

/-- A run may need some steps more. -/
theorem later (met : MetBy functions values action fun steps => run (steps + 1)) :
    MetBy functions values action run := by
  intro first second machines
  obtain ⟨outcome, matched, settles⟩ := met first second machines
  refine ⟨outcome, matched, fun ended => ?_⟩
  obtain ⟨enough, settled⟩ := settles ended
  refine ⟨enough + 1, fun steps more => ?_⟩
  obtain ⟨fewer, rfl⟩ : ∃ fewer, steps = fewer + 1 := ⟨steps - 1, by omega⟩
  exact settled fewer (Nat.le_of_succ_le_succ more)

/-- Only large numbers of steps matter. -/
theorem eventually {other : Nat → Exec β} (least : Nat)
    (same : ∀ steps ≥ least, run steps = other steps) (met : MetBy functions values action other) :
    MetBy functions values action run := by
  intro first second machines
  obtain ⟨outcome, matched, settles⟩ := met first second machines
  refine ⟨outcome, matched, fun ended => ?_⟩
  obtain ⟨enough, settled⟩ := settles ended
  refine ⟨max least enough, fun steps more => ?_⟩
  rw [same steps (Nat.le_trans (Nat.le_max_left ..) more)]
  exact settled steps (Nat.le_trans (Nat.le_max_right ..) more)

theorem locate {line : Nat} (met : MetBy functions values action run) :
    MetBy functions values (Exec.locate line action) fun steps => Exec.locate line (run steps) := by
  intro first second machines
  obtain ⟨outcome, matched, settles⟩ := met first second machines
  simp only [Settles, Exec.locate, EStateM.adaptExcept]
  generalize action first = reached at matched settles
  cases matched with
  | unfinished => exact ⟨.error .unfinished second, .unfinished, fun ended => absurd rfl (ended _)⟩
  | ok same between =>
    obtain ⟨enough, settled⟩ := settles (ok_ne_unfinished _ _)
    refine ⟨_, .ok same between, fun _ => ⟨enough, fun steps more => ?_⟩⟩
    rw [settled steps more]
  | failed same between =>
    obtain ⟨enough, settled⟩ := settles (failed_ne_unfinished _ _)
    refine ⟨_, .failed (congrArg (Located.withLine · line) same) between,
      fun _ => ⟨enough, fun steps more => ?_⟩⟩
    rw [settled steps more]
    rfl

theorem inScope (met : MetBy functions values action run) :
    MetBy functions values (Exec.inScope action) fun steps => Exec.inScope (run steps) := by
  intro first second machines
  obtain ⟨outcome, matched, settles⟩ := met { first with chain := first.chain.push }
    { second with chain := second.chain.push } ⟨machines.chains.push, machines.consoles⟩
  simp only [Settles, Exec.inScope]
  generalize action _ = reached at matched settles
  cases matched with
  | unfinished => exact ⟨.error .unfinished second, .unfinished, fun ended => absurd rfl (ended _)⟩
  | @ok value copy middle after same between =>
    obtain ⟨enough, settled⟩ := settles (ok_ne_unfinished _ _)
    refine ⟨.ok copy { after with chain := after.chain.pop },
      .ok same ⟨between.chains.pop, between.consoles⟩, fun _ => ⟨enough, fun steps more => ?_⟩⟩
    rw [settled steps more]
  | @failed error copy middle after same between =>
    obtain ⟨enough, settled⟩ := settles (failed_ne_unfinished _ _)
    refine ⟨.error (.failed copy) { after with chain := after.chain.pop },
      .failed same ⟨between.chains.pop, between.consoles⟩, fun _ => ⟨enough, fun steps more => ?_⟩⟩
    rw [settled steps more]

theorem mapM {item copy : Type} {related : item → copy → Prop} {act : item → Exec α}
    {counterpart : Nat → copy → Exec α} {items : List item} {copies : List copy}
    (each : List.Forall₂ related items copies)
    (acts : ∀ one other, related one other →
      MetBy functions Eq (act one) fun steps => counterpart steps other) :
    MetBy functions Eq (items.mapM act) fun steps => copies.mapM (counterpart steps) := by
  induction each with
  | nil => exact .pure rfl
  | cons first _ ih =>
    simp only [List.mapM_cons]
    refine (acts _ _ first).bindSame fun value => ?_
    exact ih.bindSame fun _ => .pure rfl

theorem optionMapM {item copy : Type} {related : item → copy → Prop} {act : item → Exec α}
    {counterpart : Nat → copy → Exec α} {one : Option item} {other : Option copy}
    (both : Option.Rel related one other)
    (acts : ∀ one other, related one other →
      MetBy functions Eq (act one) fun steps => counterpart steps other) :
    MetBy functions Eq (one.mapM act) fun steps => other.mapM (counterpart steps) := by
  cases both with
  | none => exact .pure rfl
  | some present => exact (acts _ _ present).bindSame fun _ => .pure rfl

theorem operator (result : Except OperatorFault α) :
    MetBy functions Eq (Exec.operator result) fun _ => Exec.operator result := by
  cases result with
  | ok value => exact .pure rfl
  | error fault => exact always (.raise rfl)

theorem lookup (name : String) :
    MetBy functions Eq (Exec.lookup name) fun _ => Exec.lookup name := by
  refine always fun machine other machines => ?_
  change Outcome.Matches _ _ _ (Exec.scope (machine.chain.lookup name) machine)
    (Exec.scope (other.chain.lookup name) other)
  rw [machines.chains.lookup]
  cases other.chain.lookup name with
  | ok value => exact .ok rfl machines
  | error fault => exact .failed rfl machines

theorem lookupFunction (name : String) :
    MetBy functions functions (Exec.lookupFunction name) fun _ => Exec.lookupFunction name := by
  refine always fun machine other machines => ?_
  change Outcome.Matches _ _ _ (Exec.scope (machine.chain.lookupFunction name) machine)
    (Exec.scope (other.chain.lookupFunction name) other)
  have found := machines.chains.bound name
  rw [Chain.lookupFunction, Chain.lookupFunction]
  generalize machine.chain.scopes.findSome? _ = first at found
  generalize other.chain.scopes.findSome? _ = second at found
  cases found with
  | some same => exact .ok same machines
  | none => exact .failed rfl machines

/-- An action that changes the chain, on whose result related chains agree. -/
theorem change {action : Exec Unit} {change : Chain → Except ScopeFault Chain}
    (apply : ∀ machine, action machine =
      match change machine.chain with
      | .ok chain => .ok () { machine with chain }
      | .error fault => .error (.failed (.unplaced (.scope fault))) machine)
    (agree : ∀ chain other, Chain.Related functions chain other →
      Agree (Chain.Related functions) (change chain) (change other)) :
    MetBy functions Eq action fun _ => action := by
  refine always fun machine other machines => ?_
  have same := agree _ _ machines.chains
  rw [apply, apply]
  cases first : change machine.chain <;> cases second : change other.chain
  all_goals simp only [first, second, Agree] at same
  case error.error fault _ =>
    subst same
    exact .failed rfl machines
  case ok.ok => exact .ok rfl ⟨same, machines.consoles⟩

theorem assign (name : String) (value : Value) :
    MetBy functions Eq (Exec.assign name value) fun _ => Exec.assign name value :=
  change (Correspondence.assign_apply name value) fun _ _ related => related.assign name value

theorem define (name : String) (value : Option Value) :
    MetBy functions Eq (Exec.define name value) fun _ => Exec.define name value :=
  change (Correspondence.define_apply name value) fun _ _ related => related.define name value

theorem emit (sink : Sink) (text : String) :
    MetBy functions Eq (Exec.emit sink text) fun _ => Exec.emit sink text := by
  rw [Exec.emit]
  split
  · exact .pure rfl
  · refine always ?_
    rintro ⟨chain, console⟩ ⟨other, _⟩ ⟨chains, rfl⟩
    rw [Correspondence.offer_apply, Correspondence.offer_apply]
    cases sink.refusal console.offers text with
    | none => exact .ok rfl ⟨chains, rfl⟩
    | some reason => exact .failed rfl ⟨chains, rfl⟩

/-- A loop is met by one that has as many rounds as steps, less those of the rounds before. -/
theorem repeatWhile {test : Exec Bool} {body : Exec Signal} {step : Exec Unit}
    {tests : Nat → Exec Bool} {bodies : Nat → Exec Signal} {takes : Nat → Exec Unit}
    (tested : MetBy functions Eq test tests) (done : MetBy functions Eq body bodies)
    (taken : MetBy functions Eq step takes) (count spent : Nat) :
    MetBy functions Eq (Run.repeatWhile test body step count) fun steps =>
      Run.repeatWhile (tests steps) (bodies steps) (takes steps) (steps - spent) := by
  induction count generalizing spent with
  | zero => exact .unfinished
  | succ count ih =>
    have again := ih (spent + 1)
    have unfolded : MetBy functions Eq (Run.repeatWhile test body step (count + 1)) fun steps =>
        Run.repeatWhile (tests steps) (bodies steps) (takes steps) (steps - (spent + 1) + 1) := by
      simp only [Run.repeatWhile]
      refine tested.bindSame fun holds => ?_
      cases holds with
      | false => exact .pure rfl
      | true =>
        refine done.bindSame fun signal => ?_
        cases signal with
        | normal => exact again
        | left => exact .pure rfl
        | proceeded => exact taken.bindSame fun _ => again
        | returned value => exact .pure rfl
    refine eventually (spent + 1) (fun steps more => ?_) unfolded
    rw [show steps - spent = steps - (spent + 1) + 1 by omega]

end MetBy

end Run

end Scriptlet
