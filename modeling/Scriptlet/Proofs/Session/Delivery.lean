import Scriptlet.Proofs.Run.Course

/-! What a session prints. A run writes one sequence of texts; a sink that stops taking them
cuts the run where it stands, and nothing else about the run changes. -/
namespace Scriptlet

namespace Run

/-- A sink that takes what it is offered up to some number of texts, and nothing from then on. -/
def Sink.upTo (first : Nat) (reason : Nat → String → String) : Sink :=
  ⟨fun offers text => if offers < first then none else some (reason offers text), none⟩

/-- Texts are all taken where no sink refuses at their places. -/
theorem deliver_taken {sinks : Sinks} (writes : List Write) (console : Console)
    (takes : ∀ line offers text, offers < console.offers + writes.length →
      (sinks line).refusal offers text = none) :
    deliver sinks writes console = (none, console.taking writes) := by
  induction writes generalizing console with
  | nil => rw [deliver, Console.taking_nil]
  | cons write rest ih =>
    have taken : (sinks write.line).refusal console.offers write.text = none :=
      takes _ _ _ (by rw [List.length_cons]; omega)
    have later : deliver sinks rest (console.taking [write]) =
        (none, (console.taking [write]).taking rest) := by
      refine ih _ fun line offers text within => takes line offers text ?_
      simp only [Console.taking, List.length_cons, List.length_nil] at within ⊢
      omega
    simp only [deliver, taken]
    rw [later, ← Console.taking_append, List.singleton_append]

private theorem deliver_accepting (writes : List Write) (console : Console) :
    deliver (fun _ => .accepting) writes console = (none, console.taking writes) :=
  deliver_taken writes console fun _ _ _ _ => rfl

/-- A sink that takes as many texts as there are takes them all. -/
theorem deliver_upTo_all {count : Nat} {writes : List Write} (reason : Nat → String → String)
    (console : Console) (enough : writes.length ≤ count) :
    deliver (fun _ => .upTo (console.offers + count) reason) writes console =
      (none, console.taking writes) := by
  refine deliver_taken writes console fun line offers text within => ?_
  exact if_pos (by omega)

/-- A sink that takes fewer refuses the first text beyond, and that is the last it is offered. -/
theorem deliver_upTo_some {count : Nat} {writes : List Write} {write : Write}
    (reason : Nat → String → String) (console : Console) (beyond : writes[count]? = some write) :
    deliver (fun _ => .upTo (console.offers + count) reason) writes console =
      (some ⟨write.line, reason (console.offers + count) write.text⟩,
        (console.taking (writes.take count)).refused) := by
  obtain ⟨within, found⟩ := List.getElem?_eq_some_iff.mp beyond
  have parts : writes = writes.take count ++ write :: writes.drop (count + 1) := by
    rw [← found, List.getElem_cons_drop, List.take_append_drop]
  have length : (writes.take count).length = count := List.length_take_of_le (Nat.le_of_lt within)
  have offers : (console.taking (writes.take count)).offers = console.offers + count := by
    rw [Console.taking, length]
  have first := deliver_upTo_all reason console (Nat.le_of_eq length)
  rw [parts, deliver_append, first]
  simp only [deliver, offers, Sink.upTo, Nat.lt_irrefl, if_false, ← parts]

end Run

namespace Session

open Run

/-- Call a function of the session, where each call has the sink of its line and there is
nothing to flush. -/
def runAt (sinks : Sinks) (steps : Nat) (entry : String) (session : Session) :
    Except Interruption (Option Value) × Session :=
  match session.globals.function? entry with
  | none => (.error (.failed (.unplaced (.scope (.undefinedFunction entry)))), session)
  | some function =>
    match callFunction (executeAt sinks steps) function [] function.line
        ⟨Chain.root session.globals, session.console⟩ with
    | .ok value after => (.ok value, ⟨after.chain.current, after.console⟩)
    | .error reason after => (.error reason, ⟨after.chain.current, after.console⟩)

theorem flushed_of_none {sink : Sink} (flushes : sink.flushRefusal = none)
    (result : Except Interruption (Option Value)) : flushed sink result = result := by
  unfold flushed
  split
  · rfl
  · simp_all
  · rfl

/-- A run with one sink, which can be flushed, has that sink on every line. -/
theorem run_eq_runAt {sink : Sink} (flushes : sink.flushRefusal = none) (steps : Nat)
    (entry : String) (session : Session) :
    session.run sink steps entry = session.runAt (fun _ => sink) steps entry := by
  rw [run, runAt, (evaluateAt_const sink steps).2]
  cases session.globals.function? entry with
  | none => rfl
  | some function =>
    simp only
    generalize callFunction _ _ _ _ _ = outcome
    cases outcome with
    | ok value after => exact Prod.ext (flushed_of_none flushes _) rfl
    | error reason after => exact Prod.ext (flushed_of_none flushes _) rfl

/-- How a run ends that would give a result and a global scope, given how its texts were
delivered: with these where all were taken, and with an error where one was refused. -/
def EndsAs (result : Except Interruption (Option Value)) (globals : Scope) :
    Option Refusal × Console → Except Interruption (Option Value) × Session → Prop
  | (none, after), ran => ran = (result, ⟨globals, after⟩)
  | (some refusal, after), ran =>
    ∃ stopped, ran = (.error (.failed refusal.error), ⟨stopped, after⟩)

/-- With all sinks and whatever was printed before, the run of an entry goes towards one result
and one global scope, and writes the same texts on its way. -/
def Delivers (globals : Scope) (steps : Nat) (entry : String)
    (result : Except Interruption (Option Value)) (final : Scope) (writes : List Write) : Prop :=
  ∀ sinks console, EndsAs result final (deliver sinks writes console)
    ((⟨globals, console⟩ : Session).runAt sinks steps entry)

theorem exists_delivers (globals : Scope) (steps : Nat) (entry : String) :
    ∃ result final writes, (∀ write ∈ writes, write.text ≠ "") ∧
      Delivers globals steps entry result final writes := by
  cases found : globals.function? entry with
  | none =>
    refine ⟨.error (.failed (.unplaced (.scope (.undefinedFunction entry)))), globals, [],
      by simp, fun sinks console => ?_⟩
    simp only [runAt, found]
    rfl
  | some function =>
    have called := Discipline.callFunction (courses.steps steps).2 function [] function.line
    obtain ⟨⟨ending, chain, writes⟩, written, follows⟩ := called (Chain.root globals)
    refine ⟨ending, chain.current, writes, written, fun sinks console => ?_⟩
    have reached := follows sinks console
    simp only [runAt, found] at reached ⊢
    generalize callFunction _ _ _ _ _ = outcome at reached ⊢
    generalize deliver sinks writes console = delivery at reached ⊢
    cases reached with
    | taken => cases ending <;> rfl
    | refused => exact ⟨_, rfl⟩

namespace Delivers

variable {globals final : Scope} {steps : Nat} {entry : String}
  {result : Except Interruption (Option Value)} {writes : List Write}
  (delivers : Delivers globals steps entry result final writes)
include delivers

theorem ends (sink : Sink) (flushes : sink.flushRefusal = none) (console : Console) :
    EndsAs result final (deliver (fun _ => sink) writes console)
      (Session.run sink steps entry ⟨globals, console⟩) := by
  rw [run_eq_runAt flushes]
  exact delivers (fun _ => sink) console

theorem run_accepting (console : Console) :
    Session.run .accepting steps entry ⟨globals, console⟩ =
      (result, ⟨final, console.taking writes⟩) := by
  have ending := delivers.ends .accepting rfl console
  rwa [deliver_accepting] at ending

/-- Nothing changes with a sink that takes as many texts as are written. -/
theorem run_upTo_all {count : Nat} (reason : Nat → String → String) (console : Console)
    (enough : writes.length ≤ count) :
    Session.run (.upTo (console.offers + count) reason) steps entry ⟨globals, console⟩ =
      (result, ⟨final, console.taking writes⟩) := by
  have ending := delivers.ends (.upTo (console.offers + count) reason) rfl console
  rwa [deliver_upTo_all reason console enough] at ending

/-- With a sink that takes fewer, the run ends at the first text beyond. -/
theorem run_upTo_some {count : Nat} {write : Write} (reason : Nat → String → String)
    (console : Console) (beyond : writes[count]? = some write) :
    ∃ stopped, Session.run (.upTo (console.offers + count) reason) steps entry ⟨globals, console⟩ =
      (.error (.failed (Refusal.error ⟨write.line, reason (console.offers + count) write.text⟩)),
        ⟨stopped, (console.taking (writes.take count)).refused⟩) := by
  have ending := delivers.ends (.upTo (console.offers + count) reason) rfl console
  rwa [deliver_upTo_some reason console beyond] at ending

end Delivers

/-- A sink that takes only so many texts cuts a run and changes nothing else about it. A run
writes a sequence of texts, none of them empty, each from a call that prints on its line; this
is seen by giving each line a sink of its own. If a sink takes as many of them, the run is that
with a sink that takes everything. If it does not, the run fails at the first text beyond, with
the line of the call that wrote it, and offers none after it. All that was taken is in the
output. -/
theorem run_upTo (session : Session) (steps : Nat) (entry : String) :
    ∃ writes : List Write, (∀ write ∈ writes, write.text ≠ "") ∧
      (session.run .accepting steps entry).2.console = session.console.taking writes ∧
      (∀ sink : Sink, sink.flushRefusal = none →
        session.run sink steps entry = session.runAt (fun _ => sink) steps entry) ∧
      (∀ sinks, EndsAs (session.run .accepting steps entry).1
        (session.run .accepting steps entry).2.globals (deliver sinks writes session.console)
        (session.runAt sinks steps entry)) ∧
      ∀ count reason,
        let limited := session.run (.upTo (session.console.offers + count) reason) steps entry
        (writes.length ≤ count → limited = session.run .accepting steps entry) ∧
        (∀ write, writes[count]? = some write →
          ∃ error, limited.1 = .error (.failed error) ∧ error.line = some write.line ∧
            error.cause.message = "failed to write output: " ++
              reason (session.console.offers + count) write.text ∧
            limited.2.console.offers = session.console.offers + count + 1) ∧
        limited.2.output =
          session.output ++ String.join ((writes.take count).map Write.text) := by
  obtain ⟨result, final, writes, written, delivers⟩ :=
    exists_delivers session.globals steps entry
  rw [delivers.run_accepting session.console]
  refine ⟨writes, written, rfl, fun sink flushes => run_eq_runAt flushes steps entry session,
    fun sinks => delivers sinks session.console, fun count reason => ?_⟩
  rcases Nat.lt_or_ge count writes.length with fewer | enough
  · have beyond : writes[count]? = some writes[count] := List.getElem?_eq_getElem fewer
    have taken : (writes.take count).length = count := List.length_take_of_le (Nat.le_of_lt fewer)
    obtain ⟨stopped, ran⟩ := delivers.run_upTo_some reason session.console beyond
    rw [ran]
    refine ⟨fun enough => absurd fewer (by omega), fun write same => ?_, ?_⟩
    · obtain rfl := Option.some.inj (beyond.symm.trans same)
      exact ⟨_, rfl, rfl, rfl, by rw [Console.refused, Console.taking, taken]⟩
    · exact Console.output_taking _ _
  · rw [delivers.run_upTo_all reason session.console enough, List.take_of_length_le enough]
    refine ⟨fun _ => rfl, fun write beyond => ?_, Console.output_taking _ _⟩
    rw [List.getElem?_eq_none enough] at beyond
    cases beyond

end Session

end Scriptlet
