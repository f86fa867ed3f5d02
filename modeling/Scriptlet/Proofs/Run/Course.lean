import Scriptlet.Proofs.Run.Correspondence
import Scriptlet.Proofs.Run.Discipline
import Scriptlet.Session

/-! Nothing that runs looks at its output. From a chain of scopes an action takes one course,
with the texts that it writes on the way; the sinks only decide how far it goes. -/
namespace Scriptlet.Run

open Exec

/-- A text that a call offers to the sink of its line. -/
structure Write where
  line : Nat
  text : String
deriving DecidableEq, Repr

namespace Console

/-- The console behind texts that were all taken. -/
def taking (console : Console) (writes : List Write) : Console :=
  ⟨console.texts ++ (writes.map Write.text).toArray, console.offers + writes.length⟩

/-- The console behind a text that was refused. -/
def refused (console : Console) : Console := ⟨console.texts, console.offers + 1⟩

@[simp] theorem taking_nil (console : Console) : console.taking [] = console := by
  simp [taking]

theorem taking_append (console : Console) (first second : List Write) :
    console.taking (first ++ second) = (console.taking first).taking second := by
  simp [taking, Nat.add_assoc]

theorem output_taking (console : Console) (writes : List Write) :
    (console.taking writes).output = console.output ++ String.join (writes.map Write.text) := by
  simp [taking, output]

end Console

/-- A text that the sink of a line did not take. -/
structure Refusal where
  line : Nat
  reason : String
deriving DecidableEq, Repr

def Refusal.error (refusal : Refusal) : Error := .atLine (.writeRefused refusal.reason) refusal.line

/-- Offer texts to the sinks of their lines, up to the first that is refused. -/
def deliver (sinks : Sinks) : List Write → Console → Option Refusal × Console
  | [], console => (none, console)
  | write :: rest, console =>
    match (sinks write.line).refusal console.offers write.text with
    | none => deliver sinks rest (console.taking [write])
    | some reason => (some ⟨write.line, reason⟩, console.refused)

theorem deliver_append (sinks : Sinks) (first second : List Write) (console : Console) :
    deliver sinks (first ++ second) console =
      match deliver sinks first console with
      | (none, after) => deliver sinks second after
      | (some refusal, after) => (some refusal, after) := by
  induction first generalizing console with
  | nil => rfl
  | cons write rest ih =>
    simp only [List.cons_append, deliver]
    cases (sinks write.line).refusal console.offers write.text with
    | none => exact ih _
    | some reason => rfl

/-- How an action ends, the chain that it leaves, and what it writes until then. -/
structure Course (α : Type) where
  ending : Except Interruption α
  chain : Chain
  writes : List Write

/-- The outcome with this ending. -/
def outcomeAt {α : Type} (ending : Except Interruption α) (machine : Machine) : Outcome α :=
  match ending with
  | .ok value => .ok value machine
  | .error reason => .error reason machine

/-- The outcomes that an ending has, given how the texts in front of it were delivered: where
all of them were taken it is reached, and where one was refused there is an error instead. -/
inductive Gives {α : Type} (ending : Except Interruption α) (chain : Chain) :
    Option Refusal × Console → Outcome α → Prop where
  | taken {after : Console} : Gives ending chain (none, after) (outcomeAt ending ⟨chain, after⟩)
  | refused {refusal : Refusal} {after : Console} {stopped : Chain} :
      Gives ending chain (some refusal, after) (.error (.failed refusal.error) ⟨stopped, after⟩)

/-- From a chain, with all sinks and whatever was printed before, an action goes along a course
up to the first text that is refused. -/
def Follows {α : Type} (action : Sinks → Exec α) (chain : Chain) (course : Course α) : Prop :=
  ∀ sinks console, Gives course.ending course.chain (deliver sinks course.writes console)
    (action sinks ⟨chain, console⟩)

/-- An action that has a course from every chain. It writes no empty texts. -/
def HasCourse {α : Type} (action : Sinks → Exec α) : Prop :=
  ∀ chain, ∃ course, (∀ write ∈ course.writes, write.text ≠ "") ∧ Follows action chain course

namespace HasCourse

variable {α β : Type} {action : Sinks → Exec α}

/-- An action that writes nothing. -/
theorem silent (silence : ∀ chain, ∃ ending final, ∀ sinks console,
      action sinks ⟨chain, console⟩ = outcomeAt ending ⟨final, console⟩) :
    HasCourse action := by
  intro chain
  obtain ⟨ending, final, same⟩ := silence chain
  refine ⟨⟨ending, final, []⟩, by simp, fun sinks console => ?_⟩
  rw [same]
  exact .taken

theorem bind {next : Sinks → α → Exec β} (first : HasCourse action)
    (rest : ∀ value, HasCourse fun sinks => next sinks value) :
    HasCourse fun sinks => action sinks >>= next sinks := by
  intro chain
  obtain ⟨⟨ending, middle, writes⟩, written, follows⟩ := first chain
  cases ending with
  | error reason =>
    refine ⟨⟨.error reason, middle, writes⟩, written, fun sinks console => ?_⟩
    have reached := follows sinks console
    simp only [bind_apply]
    generalize action sinks _ = outcome at reached ⊢
    generalize deliver sinks _ console = delivery at reached ⊢
    cases reached with
    | taken => exact .taken
    | refused => exact .refused
  | ok value =>
    -- Both parts are delivered, the second one from where the first has led.
    obtain ⟨⟨ending, final, others⟩, behind, following⟩ := rest value middle
    refine ⟨⟨ending, final, writes ++ others⟩, List.forall_mem_append.mpr ⟨written, behind⟩, ?_⟩
    intro sinks console
    have reached := follows sinks console
    simp only [bind_apply, deliver_append]
    generalize action sinks _ = outcome at reached ⊢
    generalize deliver sinks writes console = delivery at reached ⊢
    cases reached with
    | taken => exact following sinks _
    | refused => exact .refused

/-- An error that a sink gives has its line, so it is not located again. -/
theorem locate (line : Nat) (located : HasCourse action) :
    HasCourse fun sinks => Exec.locate line (action sinks) := by
  intro chain
  obtain ⟨⟨ending, final, writes⟩, written, follows⟩ := located chain
  refine ⟨⟨ending.mapError (Interruption.withLine line), final, writes⟩, written, ?_⟩
  intro sinks console
  have reached := follows sinks console
  simp only [Exec.locate, EStateM.adaptExcept]
  generalize action sinks _ = outcome at reached ⊢
  generalize deliver sinks writes console = delivery at reached ⊢
  cases reached with
  | taken => cases ending <;> exact .taken
  | refused => exact .refused

theorem inScope (inside : HasCourse action) :
    HasCourse fun sinks => Exec.inScope (action sinks) := by
  intro chain
  obtain ⟨⟨ending, final, writes⟩, written, follows⟩ := inside chain.push
  refine ⟨⟨ending, final.pop, writes⟩, written, fun sinks console => ?_⟩
  have reached := follows sinks console
  simp only [Exec.inScope]
  generalize action sinks _ = outcome at reached ⊢
  generalize deliver sinks writes console = delivery at reached ⊢
  cases reached with
  | taken => cases ending <;> exact .taken
  | refused => exact .refused

/-- An action on the chain alone. -/
theorem ofChain (act : Chain → Except ScopeFault (α × Chain))
    (same : ∀ sinks chain console, action sinks ⟨chain, console⟩ =
      match act chain with
      | .ok (value, after) => .ok value ⟨after, console⟩
      | .error fault => .error (.failed (.unplaced (.scope fault))) ⟨chain, console⟩) :
    HasCourse action := by
  refine silent fun chain => ?_
  cases found : act chain with
  | ok result =>
    refine ⟨.ok result.1, result.2, fun sinks console => ?_⟩
    rw [same, found]
    rfl
  | error fault =>
    refine ⟨.error (.failed (.unplaced (.scope fault))), chain, fun sinks console => ?_⟩
    rw [same, found]
    rfl

/-- Printing a text writes it, unless it is empty. -/
theorem print (line : Nat) (text : String) :
    HasCourse fun sinks => Exec.locate line (emit (sinks line) text) := by
  by_cases empty : text = ""
  · refine silent fun chain => ⟨.ok (), chain, fun sinks console => ?_⟩
    rw [empty]
    rfl
  · intro chain
    refine ⟨⟨.ok (), chain, [⟨line, text⟩]⟩, by simpa using empty, fun sinks console => ?_⟩
    have offered : emit (sinks line) text = offer (sinks line) text := by
      rw [emit, if_neg (by simpa using empty)]
    simp only [offered, Exec.locate, EStateM.adaptExcept, Correspondence.offer_apply, deliver]
    cases (sinks line).refusal console.offers text with
    | none =>
      have taken : console.taking [⟨line, text⟩] =
          ⟨console.texts.push text, console.offers + 1⟩ := by
        simp [Console.taking]
      rw [← taken]
      exact .taken
    | some reason => exact .refused

end HasCourse

/-- Having a course is a discipline. -/
def courses : Discipline where
  Holds _ action := HasCourse action
  widen holds _ := holds
  pure value := .silent fun chain => ⟨.ok value, chain, fun _ _ => rfl⟩
  interrupt reason := .silent fun chain => ⟨.error reason, chain, fun _ _ => rfl⟩
  bind := .bind
  locate := .locate
  inScope := .inScope
  look read := .ofChain (fun chain => (read chain).map (·, chain)) fun sinks chain console => by
    change Exec.scope (read chain) ⟨chain, console⟩ = _
    cases read chain <;> rfl
  assign name value := .ofChain (fun chain => (chain.assign name value).map ((), ·))
    fun sinks chain console => by
      rw [Correspondence.assign_apply]
      cases chain.assign name value <;> rfl
  define name value := .ofChain (fun chain => (chain.defineVariable name value).map ((), ·))
    fun sinks chain console => by
      rw [Correspondence.define_apply]
      cases chain.defineVariable name value <;> rfl
  print := .print

end Scriptlet.Run
