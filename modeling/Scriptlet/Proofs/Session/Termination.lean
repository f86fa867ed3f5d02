import Mathlib.Order.WellFoundedSet
import Scriptlet.Proofs.Run.Halting
import Scriptlet.Proofs.Session.Delivery

/-! Runs that end for certain. Where no function that a run may come to call has a loop, and none
calls itself, be it through others, the run ends. There are finitely many functions, so calls
cannot nest for ever; and between two calls only the parts of one function are executed. -/
namespace Scriptlet

open Relation (ReflTransGen TransGen)

/-- Nodes that hold all their parts hold all that is within them. -/
theorem Node.mem_of_within {nodes : List Node} (closed : ∀ node ∈ nodes, node.parts ⊆ nodes)
    {part whole : Node} (within : part.Within whole) (member : whole ∈ nodes) : part ∈ nodes := by
  induction within with
  | refl => exact member
  | tail _ below ih => exact closed _ ih below

namespace Session

open Run

/-- One function calls another, by a name that is bound and that no builtin has. -/
def Calls (session : Session) (caller callee : String) : Prop :=
  ∃ function ∈ session.globals.function? caller, ∃ node : Node,
    node.Within (.function function) ∧ node.callee? = some callee ∧
      Builtin.ofName? callee = none ∧ session.globals.function? callee ≠ none

variable {session : Session} {entry : String}

private theorem finite_bound (scope : Scope) : {name | scope.function? name ≠ none}.Finite := by
  apply (List.finite_toSet (scope.functions.map Prod.fst)).subset
  intro name bound
  obtain ⟨function, found⟩ := Option.ne_none_iff_exists'.mp bound
  obtain ⟨front, back, same, _⟩ := List.lookup_eq_some_iff.mp found
  simp [same]

/-- What calls between the functions that a run may come to call say about their order. -/
theorem isStrictOrder_calls
    (acyclic : ∀ name, ReflTransGen session.Calls entry name → ¬ TransGen session.Calls name name) :
    IsStrictOrder String fun callee caller =>
      ReflTransGen session.Calls entry caller ∧ TransGen session.Calls caller callee where
  irrefl name := fun ⟨reached, again⟩ => acyclic name reached again
  trans _ _ _ := fun ⟨_, second⟩ ⟨reached, first⟩ => ⟨reached, first.trans second⟩

/-- All that stands in the body of a function halts. -/
def BodyHalts (session : Session) (sink : Sink) (name : String) : Prop :=
  ∀ function ∈ session.globals.function? name, ∀ statement ∈ function.body,
    Halts session.globals fun steps => execute sink steps statement

/-- Every function that a run may come to call halts, by induction on the functions it calls. -/
theorem bodyHalts_of_calls
    (loopless : ∀ name, ReflTransGen session.Calls entry name →
      ∀ function ∈ session.globals.function? name, function.Loopless)
    (acyclic : ∀ name, ReflTransGen session.Calls entry name → ¬ TransGen session.Calls name name)
    (sink : Sink) {name : String} (reached : ReflTransGen session.Calls entry name)
    (bound : session.globals.function? name ≠ none) : session.BodyHalts sink name := by
  have order := isStrictOrder_calls acyclic
  have wellFounded := (finite_bound session.globals).wellFoundedOn
    (r := fun callee caller =>
      ReflTransGen session.Calls entry caller ∧ TransGen session.Calls caller callee)
  revert reached
  refine wellFounded.induction
    (P := fun name => ReflTransGen session.Calls entry name → session.BodyHalts sink name) bound ?_
  intro caller _ ih reached function present statement member
  apply statement_halts _ (loopless caller reached function present) statement
  · exact .single (List.mem_map_of_mem member)
  · intro node within callee named unlisted other found
    have bound : session.globals.function? callee ≠ none :=
      Option.ne_none_iff_exists'.mpr ⟨other, found⟩
    have calls : session.Calls caller callee :=
      ⟨function, present, node, within, named, unlisted, bound⟩
    exact ih callee bound ⟨reached, .single calls⟩ (reached.tail calls) other found

/-- Results of runs that have come to an end. -/
inductive Finished : Except Interruption (Option Value) → Prop where
  | value (value : Value) : Finished (.ok (some value))
  | noValue : Finished (.ok none)
  | failed (error : Error) : Finished (.error (.failed error))

theorem Finished.flushed {result : Except Interruption (Option Value)} (finished : Finished result)
    (sink : Sink) : Finished (flushed sink result) := by
  cases refused : sink.flushRefusal with
  | some reason =>
    cases finished <;> simp only [Session.flushed, refused] <;> exact .failed _
  | none =>
    rw [flushed_of_none refused]
    exact finished

/-- A run ends, with a value, without one or with an error, if no function that it may come to
call has a loop or calls itself, be it through others. -/
theorem run_ends
    (loopless : ∀ name, ReflTransGen session.Calls entry name →
      ∀ function ∈ session.globals.function? name, function.Loopless)
    (acyclic : ∀ name, ReflTransGen session.Calls entry name → ¬ TransGen session.Calls name name)
    (sink : Sink) :
    ∃ result after, Finished result ∧ ∃ enough, ∀ steps ≥ enough,
      session.run sink steps entry = (result, after) := by
  cases found : session.globals.function? entry with
  | none =>
    refine ⟨_, session, .failed (.unplaced (.scope (.undefinedFunction entry))), 0, ?_⟩
    intro steps _
    simp only [run, found]
  | some function =>
    have bound : session.globals.function? entry ≠ none :=
      Option.ne_none_iff_exists'.mpr ⟨function, found⟩
    have body := bodyHalts_of_calls loopless acyclic sink .refl bound function found
    obtain ⟨outcome, ⟨enough, settled⟩, ended⟩ := Halts.callFunction body [] function.line
      ⟨Chain.root session.globals, session.console⟩ (.root session.globals)
    cases ended with
    | @ok value after kept =>
      have finished : Finished (.ok value) := by
        cases value with
        | none => exact .noValue
        | some value => exact .value value
      refine ⟨_, ⟨after.chain.current, after.console⟩, finished.flushed sink, enough, ?_⟩
      intro steps more
      simp only [run, found, settled steps more]
    | @failed error after =>
      refine ⟨_, ⟨after.chain.current, after.console⟩, (Finished.failed error).flushed sink,
        enough, ?_⟩
      intro steps more
      simp only [run, found, settled steps more]

/-- Half of the argument. -/
def half : Expr := .binary (.identifier "whole" 1) .divide (.literal (.int 2) 1) 1

def halving : Function :=
  ⟨"half", [⟨"whole", ⟨"int", 0⟩⟩], ⟨"int", 0⟩, [.returns (some half) 1], 1, 1⟩

/-- Half of seven, by a call. -/
def halfSeven : Expr := .call (.identifier "half" 2) [.literal (.int 7) 2] 2

/-- A function that prints it. -/
def halfPrinting : Function :=
  ⟨"main", [], ⟨"void", 0⟩,
    [.evaluate (.call (.identifier "print" 2) [halfSeven] 2) 2], 2, 2⟩

def halvingSession : Session := ⟨⟨[], [("main", halfPrinting), ("half", halving)]⟩, .empty⟩

def halvingNodes : List Node :=
  [.function halving, .statement (.returns (some half) 1), .expression half,
    .expression (.identifier "whole" 1), .expression (.literal (.int 2) 1)]

def halfPrintingNodes : List Node :=
  [.function halfPrinting, .statement (.evaluate (.call (.identifier "print" 2) [halfSeven] 2) 2),
    .expression (.call (.identifier "print" 2) [halfSeven] 2), .expression halfSeven,
    .expression (.identifier "print" 2), .expression (.identifier "half" 2),
    .expression (.literal (.int 7) 2)]

private theorem mem_halvingNodes {node : Node} (within : node.Within (.function halving)) :
    node ∈ halvingNodes := by
  refine Node.mem_of_within ?_ within (List.mem_cons_self ..)
  simp [Node.parts, halvingNodes, halving, half]

private theorem mem_halfPrintingNodes {node : Node}
    (within : node.Within (.function halfPrinting)) : node ∈ halfPrintingNodes := by
  refine Node.mem_of_within ?_ within (List.mem_cons_self ..)
  simp [Node.parts, halfPrintingNodes, halfPrinting, halfSeven]

private theorem halvingSession_function {name : String} {function : Function}
    (found : halvingSession.globals.function? name = some function) :
    name = "main" ∧ function = halfPrinting ∨ name = "half" ∧ function = halving := by
  simp only [halvingSession, Scope.function?, Scope.lookup_cons, List.lookup_nil] at found
  grind

private theorem halvingSession_calls {caller callee : String}
    (calls : halvingSession.Calls caller callee) : caller = "main" ∧ callee = "half" := by
  obtain ⟨function, found, node, within, named, unlisted, bound⟩ := calls
  rcases halvingSession_function found with ⟨rfl, rfl⟩ | ⟨rfl, rfl⟩
  · have either : ∀ node ∈ halfPrintingNodes, ∀ name ∈ node.callee?,
        name = "print" ∨ name = "half" := by decide
    rcases either node (mem_halfPrintingNodes within) callee named with rfl | rfl
    · cases unlisted
    · exact ⟨rfl, rfl⟩
  · have none : ∀ node ∈ halvingNodes, node.callee? = none := by decide
    rw [none node (mem_halvingNodes within)] at named
    cases named

theorem halvingSession_ends : halvingSession.Calls "main" "half" ∧ ∃ result after,
    Finished result ∧ ∃ enough, ∀ steps ≥ enough,
      halvingSession.run .accepting steps "main" = (result, after) := by
  constructor
  · have inside : Node.Within (.expression halfSeven) (.function halfPrinting) :=
      ((ReflTransGen.refl.tail (List.mem_cons_self ..)).tail (List.mem_cons_self ..)).tail
        (List.mem_cons_of_mem _ (List.mem_cons_self ..))
    exact ⟨halfPrinting, rfl, _, inside, rfl, rfl, nofun⟩
  · refine run_ends ?_ ?_ .accepting
    · intro name _ function found condition body stepped line within
      rcases halvingSession_function found with ⟨_, rfl⟩ | ⟨_, rfl⟩
      · have member := mem_halfPrintingNodes within
        simp [halfPrintingNodes] at member
      · have member := mem_halvingNodes within
        simp [halvingNodes] at member
    · intro name _ again
      obtain ⟨other, first, rest⟩ := TransGen.head'_iff.mp again
      obtain ⟨rfl, rfl⟩ := halvingSession_calls first
      rcases (ReflTransGen.cases_tail_iff ..).mp rest with same | ⟨_, _, last⟩
      · simp at same
      · simpa using (halvingSession_calls last).2

end Session

end Scriptlet
