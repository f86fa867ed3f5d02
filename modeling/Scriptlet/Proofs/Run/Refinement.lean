import Scriptlet.Run.Evaluate

/-! Comparing runs. An action refines another if every outcome that it reaches within its
steps is matched by the other, from machines that are alike. Where it runs out of steps,
nothing is asked of the other. -/
namespace Scriptlet.Run

/-- What an action gives, with the machine it leaves. -/
abbrev Outcome (α : Type) := EStateM.Result Interruption Machine α

/-- Alike outcomes: alike values or alike errors, and alike machines. -/
inductive Outcome.Matches {α β : Type} (alike : Machine → Machine → Prop)
    (errors : Error → Error → Prop) (values : α → β → Prop) : Outcome α → Outcome β → Prop where
  | unfinished {machine : Machine} {outcome : Outcome β} :
      Matches alike errors values (.error .unfinished machine) outcome
  | ok {value : α} {other : β} {machine after : Machine} (same : values value other)
      (machines : alike machine after) :
      Matches alike errors values (.ok value machine) (.ok other after)
  | failed {error other : Error} {machine after : Machine} (same : errors error other)
      (machines : alike machine after) :
      Matches alike errors values (.error (.failed error) machine) (.error (.failed other) after)

def Refines {α β : Type} (alike : Machine → Machine → Prop) (errors : Error → Error → Prop)
    (values : α → β → Prop) (left : Exec α) (right : Exec β) : Prop :=
  ∀ first second, alike first second →
    Outcome.Matches alike errors values (left first) (right second)

theorem bind_apply {α β : Type} (action : Exec α) (next : α → Exec β) (machine : Machine) :
    (action >>= next) machine =
      match action machine with
      | .ok value after => next value after
      | .error reason after => .error reason after := by
  change EStateM.bind action next machine = _
  rw [EStateM.bind]
  cases action machine <;> rfl

namespace Refines

variable {α β γ δ : Type} {alike inner : Machine → Machine → Prop}
  {errors : Error → Error → Prop} {values : α → β → Prop} {results : γ → δ → Prop}
  {left : Exec α} {right : Exec β}

theorem pure {value : α} {other : β} (same : values value other) :
    Refines alike errors values (pure value) (pure other) :=
  fun _ _ machines => .ok same machines

theorem unfinished : Refines alike errors values Exec.unfinished right :=
  fun _ _ _ => .unfinished

theorem raise {cause : Cause} (same : errors (.unplaced cause) (.unplaced cause)) :
    Refines alike errors values (Exec.raise cause) (Exec.raise cause) :=
  fun _ _ machines => .failed same machines

theorem failAt {line : Nat} {cause : Cause}
    (same : errors (.atLine cause line) (.atLine cause line)) :
    Refines alike errors values (Exec.failAt line cause) (Exec.failAt line cause) :=
  fun _ _ machines => .failed same machines

theorem bind {next : α → Exec γ} {follow : β → Exec δ}
    (first : Refines alike errors values left right)
    (rest : ∀ value other, values value other →
      Refines alike errors results (next value) (follow other)) :
    Refines alike errors results (left >>= next) (right >>= follow) := by
  intro machine other machines
  rw [bind_apply, bind_apply]
  have matched := first machine other machines
  generalize left machine = outcome at matched
  generalize right other = counterpart at matched
  cases matched with
  | unfinished => exact .unfinished
  | ok same machines => exact rest _ _ same _ _ machines
  | failed same machines => exact .failed same machines

theorem weaken {weaker : α → β → Prop} (refines : Refines alike errors values left right)
    (implied : ∀ value other, values value other → weaker value other) :
    Refines alike errors weaker left right := by
  intro machine other machines
  have matched := refines machine other machines
  generalize left machine = outcome at matched ⊢
  generalize right other = counterpart at matched ⊢
  cases matched with
  | unfinished => exact .unfinished
  | ok same machines => exact .ok (implied _ _ same) machines
  | failed same machines => exact .failed same machines

theorem locate {line : Nat} (located : ∀ error other, errors error other →
      errors (error.withLine line) (other.withLine line))
    (refines : Refines alike errors values left right) :
    Refines alike errors values (Exec.locate line left) (Exec.locate line right) := by
  intro machine other machines
  have matched := refines machine other machines
  simp only [Exec.locate, EStateM.adaptExcept]
  generalize left machine = outcome at matched
  generalize right other = counterpart at matched
  cases matched with
  | unfinished => exact .unfinished
  | ok same machines => exact .ok same machines
  | failed same machines => exact .failed (located _ _ same) machines

/-- Machines with a fresh scope are to be alike where a scope is entered, and those that have
lost it again where it is left. -/
theorem inScope (refines : Refines inner errors values left right)
    (enter : ∀ machine other, alike machine other →
      inner { machine with chain := machine.chain.push } { other with chain := other.chain.push })
    (leave : ∀ machine other, inner machine other →
      alike { machine with chain := machine.chain.pop } { other with chain := other.chain.pop }) :
    Refines alike errors values (Exec.inScope left) (Exec.inScope right) := by
  intro machine other machines
  have matched := refines _ _ (enter _ _ machines)
  simp only [Exec.inScope]
  generalize left _ = outcome at matched
  generalize right _ = counterpart at matched
  cases matched with
  | unfinished => exact .unfinished
  | ok same machines => exact .ok same (leave _ _ machines)
  | failed same machines => exact .failed same (leave _ _ machines)

theorem mapM {item : Type} {act counterpart : item → Exec α} (items : List item)
    (each : ∀ one ∈ items, Refines alike errors Eq (act one) (counterpart one)) :
    Refines alike errors Eq (items.mapM act) (items.mapM counterpart) := by
  induction items with
  | nil => exact .pure rfl
  | cons first rest ih =>
    obtain ⟨head, tail⟩ := List.forall_mem_cons.mp each
    rw [List.mapM_cons, List.mapM_cons]
    refine head.bind ?_
    rintro value _ rfl
    refine (ih tail).bind ?_
    rintro others _ rfl
    exact .pure rfl

theorem optionMapM {item : Type} {act counterpart : item → Exec α} (one : Option item)
    (each : ∀ present ∈ one, Refines alike errors Eq (act present) (counterpart present)) :
    Refines alike errors Eq (one.mapM act) (one.mapM counterpart) := by
  cases one with
  | none => exact .pure rfl
  | some present =>
    refine (each present rfl).bind ?_
    rintro value _ rfl
    exact .pure rfl

end Refines

/-- Signals that leave or continue a loop. -/
def Signal.controlsLoop : Signal → Bool
  | left => true
  | proceeded => true
  | _ => false

/-- A loop refines another with the same number of rounds or more, and ends without leaving or
continuing a loop around it. -/
theorem Refines.repeatWhile {alike : Machine → Machine → Prop} {errors : Error → Error → Prop}
    {test otherTest : Exec Bool} {body otherBody : Exec Signal} {step otherStep : Exec Unit}
    {count rounds : Nat} (tests : Refines alike errors Eq test otherTest)
    (bodies : Refines alike errors Eq body otherBody)
    (steps : Refines alike errors Eq step otherStep) (fewer : count ≤ rounds) :
    Refines alike errors (fun signal other => signal = other ∧ signal.controlsLoop = false)
      (Run.repeatWhile test body step count)
      (Run.repeatWhile otherTest otherBody otherStep rounds) := by
  induction count generalizing rounds with
  | zero => exact .unfinished
  | succ count ih =>
    obtain ⟨rounds, rfl⟩ : ∃ less, rounds = less + 1 := ⟨rounds - 1, by omega⟩
    have again := ih (Nat.le_of_succ_le_succ fewer)
    refine tests.bind ?_
    rintro holds _ rfl
    cases holds with
    | false => exact .pure ⟨rfl, rfl⟩
    | true =>
      refine bodies.bind ?_
      rintro signal _ rfl
      cases signal with
      | normal => exact again
      | left => exact .pure ⟨rfl, rfl⟩
      | proceeded =>
        refine steps.bind ?_
        rintro _ _ _
        exact again
      | returned value => exact .pure ⟨rfl, rfl⟩

end Scriptlet.Run
