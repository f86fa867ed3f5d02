import Scriptlet.Proofs.Except
import Scriptlet.Proofs.Run.Nodes
import Scriptlet.Proofs.Run.Scoping
import Scriptlet.Proofs.Run.Stages

/-! Whose error it is. Every error that ends a call arises at a node of some function, has the
line of this node, and is an error that such a node can raise. Nothing on its way out gives it
another line. -/
namespace Scriptlet

namespace Run

open Exec

/-- The functions that can be called are among the nodes. -/
def Machine.Calls (nodes : Set Node) (machine : Machine) : Prop :=
  machine.chain.Binds fun function => Node.function function ∈ nodes

section

variable {α item : Type} {sink : Sink} {steps : Nat} {nodes : Set Node}
  {machine after reached : Machine}

/-- What keeps to the scopes leaves the functions that can be called. -/
theorem Machine.Calls.ofHolds {names : Set String} {action : Exec α} {value : α}
    (calls : machine.Calls nodes) (holds : scoping.Holds names fun _ => action)
    (done : action machine = .ok value after) : after.Calls nodes := by
  have keeps := holds (fun _ => Sink.accepting) machine
  simp only [done] at keeps
  exact keeps.binds calls

theorem Machine.Calls.inside (calls : machine.Calls nodes) : machine.inside.Calls nodes :=
  Chain.Binds.push calls

private theorem Arrives.calls {act : item → Exec α} {goesOn : α → Prop} {items : List item}
    {one : item} (arrives : Arrives act goesOn items machine one reached)
    {names : item → Set String} (each : ∀ one ∈ items, scoping.Holds (names one) fun _ => act one)
    (calls : machine.Calls nodes) : reached.Calls nodes := by
  induction arrives with
  | here => exact calls
  | later taken _ _ ih =>
    obtain ⟨head, tail⟩ := List.forall_mem_cons.mp each
    exact ih tail (calls.ofHolds head taken)

/-- What is evaluated and executed on the way keeps to the scopes. -/
theorem valueOf_scoped {tree : Expr} :
    scoping.Holds ∅ fun _ => valueOf (evaluate sink steps) tree :=
  Discipline.valueOf (evaluates_scoped sink steps) tree

private theorem conditionHolds_scoped {condition : Expr} :
    scoping.Holds ∅ fun _ => conditionHolds (evaluate sink steps) condition :=
  scoping.bind valueOf_scoped fun _ => scoping.pure _

private theorem printOne_scoped {argument : Expr} :
    scoping.Holds ∅ fun _ => printOne sink (evaluate sink steps) argument := by
  refine scoping.bind (evaluates_scoped sink steps argument) fun result => ?_
  cases result with
  | none => exact scoping.pure ()
  | some value => exact KeepsScopes.emit sink value.text

private theorem Repeats.calls {condition : Expr} {body : Stmt} {increment : Option Stmt}
    {count : Nat}
    (repeats : Repeats (conditionHolds (evaluate sink steps) condition) (execute sink steps body)
      (takeStep (execute sink steps) increment) count machine reached)
    (calls : machine.Calls nodes) : reached.Calls nodes := by
  have tests : scoping.Holds ∅ fun _ => conditionHolds (evaluate sink steps) condition :=
    conditionHolds_scoped
  have bodies : scoping.Holds body.declared fun _ => execute sink steps body :=
    executes_scoped sink steps body
  have stepping : scoping.Holds Set.univ fun _ => takeStep (execute sink steps) increment :=
    Discipline.takeStep (executes_scoped sink steps) increment fun _ _ => Set.subset_univ _
  induction repeats with
  | here => exact calls
  | normal holds done _ ih => exact ih ((calls.ofHolds tests holds).ofHolds bodies done)
  | proceeded holds done taken _ ih =>
    exact ih (((calls.ofHolds tests holds).ofHolds bodies done).ofHolds stepping taken)

end

/-- The increment of a loop is a node of its body. -/
theorem step_mem_parts {stepped : Bool} {body step : Stmt}
    (kept : increment? stepped body = some step) :
    Node.statement step ∈ (Node.statement body).parts := by
  unfold increment? at kept
  split at kept
  · exact List.mem_map_of_mem (List.mem_of_getLast? kept)
  · cases kept

/-- A stage at one of the nodes, from where only functions among them can be called. A call has
as many values as there are parameters, unless it is the first one, which has none. -/
structure Stage.Inside (nodes : Set Node) (stage : Stage) : Prop where
  member : stage.node ∈ nodes
  calls : stage.machine.Calls nodes
  supplied : ∀ function values, stage.activity = .call function values →
    values = [] ∨ values.length = function.parameters.length

/-- Stages other than calls. -/
theorem Stage.Inside.of {nodes : Set Node} {steps : Nat} {activity : Activity} {machine : Machine}
    (member : activity.node ∈ nodes) (calls : machine.Calls nodes)
    (other : ∀ function values, activity ≠ .call function values) :
    Stage.Inside nodes ⟨steps, activity, machine⟩ :=
  ⟨member, calls, fun function values same => absurd same (other function values)⟩

variable {sink : Sink} {stage part : Stage} {error : Error} {nodes : Set Node}

/-- From inside, a run comes to nothing outside. -/
theorem Comes.inside (comes : Comes sink stage part)
    (closed : ∀ node ∈ nodes, ∀ part ∈ node.parts, part ∈ nodes) (inside : stage.Inside nodes) :
    part.Inside nodes := by
  obtain ⟨member, calls, _⟩ := inside
  have below := closed _ member
  cases comes with
  | result => exact .of member calls nofun
  | parenthesized => exact .of (below _ (List.mem_cons_self ..)) calls nofun
  | operand => exact .of (below _ (List.mem_cons_self ..)) calls nofun
  | left => exact .of (below _ (List.mem_cons_self ..)) calls nofun
  | right evaluated =>
    refine .of (below _ (List.mem_cons_of_mem _ (List.mem_cons_self ..))) ?_ nofun
    exact calls.ofHolds valueOf_scoped evaluated
  | assigned => exact .of (below _ (List.mem_cons_self ..)) calls nofun
  | printed prints arrives =>
    refine .of (below _ (List.mem_cons_of_mem _ (List.mem_map_of_mem arrives.mem))) ?_ nofun
    exact arrives.calls (fun _ _ => printOne_scoped) calls
  | argument finds enough arrives =>
    refine .of (below _ (List.mem_cons_of_mem _ (List.mem_map_of_mem arrives.mem))) ?_ nofun
    exact arrives.calls (fun _ _ => valueOf_scoped) calls
  | called finds enough evaluated =>
    refine ⟨calls.lookupFunction finds.found, ?_, ?_⟩
    · exact calls.ofHolds (scoping.mapM _ fun _ _ => valueOf_scoped) evaluated
    · rintro _ _ ⟨⟩
      exact .inr ((length_of_mapM evaluated).trans enough)
  | body enough binds arrives =>
    refine .of (below _ (List.mem_map_of_mem arrives.mem)) ?_ nofun
    have bound := calls.inside.ofHolds (Discipline.bindParameters _ _) binds
    exact arrives.calls (fun statement _ => executes_scoped _ _ statement) bound.inside
  | statement arrives =>
    refine .of (below _ (List.mem_map_of_mem arrives.mem)) ?_ nofun
    exact arrives.calls (fun statement _ => executes_scoped _ _ statement) calls.inside
  | evaluated => exact .of (below _ (List.mem_cons_self ..)) calls nofun
  | initial => exact .of (below _ (List.mem_cons_self ..)) calls nofun
  | returned => exact .of (below _ (List.mem_cons_self ..)) calls nofun
  | condition => exact .of (below _ (List.mem_cons_self ..)) calls nofun
  | whenTrue evaluated holds =>
    refine .of (below _ (List.mem_cons_of_mem _ (List.mem_cons_self ..))) ?_ nofun
    exact calls.ofHolds valueOf_scoped evaluated
  | whenFalse evaluated fails =>
    refine .of (below _ (by simp [Node.parts, Stage.node, Activity.node])) ?_ nofun
    exact calls.ofHolds valueOf_scoped evaluated
  | test repeats => exact .of (below _ (List.mem_cons_self ..)) (repeats.calls calls) nofun
  | round repeats holds =>
    refine .of (below _ (List.mem_cons_of_mem _ (List.mem_cons_self ..))) ?_ nofun
    exact (repeats.calls calls).ofHolds conditionHolds_scoped holds
  | step repeats holds done kept =>
    have body := below _ (List.mem_cons_of_mem _ (List.mem_cons_self ..))
    refine .of (closed _ body _ (step_mem_parts kept)) ?_ nofun
    have tested := (repeats.calls calls).ofHolds conditionHolds_scoped holds
    exact tested.ofHolds (executes_scoped _ _ _) done

private theorem fault_of_lookup {chain : Chain} {name : String} {fault : ScopeFault}
    (failed : chain.lookup name = .error fault) :
    fault = .undefinedVariable name ∨ fault = .unassignedVariable name := by
  rw [Chain.lookup] at failed
  split at failed <;> cases failed
  · exact .inl rfl
  · exact .inr rfl

private theorem fault_of_lookupFunction {chain : Chain} {name : String} {fault : ScopeFault}
    (failed : chain.lookupFunction name = .error fault) : fault = .undefinedFunction name := by
  rw [Chain.lookupFunction] at failed
  split at failed <;> cases failed
  rfl

private theorem fault_of_assign {chain : Chain} {name : String} {value : Value} {fault : ScopeFault}
    (failed : chain.assign name value = .error fault) : fault = .undefinedVariable name := by
  rcases chain.assign_eq name value with ⟨changed, same, _⟩ | ⟨missing, _⟩
  · cases failed.symm.trans same
  · cases failed.symm.trans missing
    rfl

private theorem fault_of_defineVariable {chain : Chain} {name : String} {value : Option Value}
    {fault : ScopeFault} (failed : chain.defineVariable name value = .error fault) :
    fault = .variableDefined name := by
  have refused := Except.error_of_map failed
  rw [Scope.defineVariable] at refused
  split at refused <;> cases refused
  rfl

/-- The errors of a stage are those that its node can raise. -/
theorem Raised.raises (raised : Raised sink stage error) (inside : stage.Inside nodes) :
    stage.node.Raises error.cause := by
  cases raised with
  | noValue evaluated => exact .noValue rfl
  | identifier failed =>
    rcases fault_of_lookup failed with rfl | rfl
    · exact .undefined
    · exact .unassigned
  | unary evaluated failed =>
    obtain rfl := UnaryOperator.fault_of_apply failed
    exact .operand
  | binary evaluated other failed =>
    rcases BinaryOperator.fault_of_apply failed with rfl | rfl
    · exact .operands
    · exact .zeroDivisor
  | assign evaluated failed =>
    obtain rfl := fault_of_assign failed
    exact .target
  | member => exact .member
  | unnamed noName => exact .unnamed noName
  | print prints arrives evaluated some refused => exact .print prints.named prints.builtin
  | unknown named noBuiltin failed =>
    obtain rfl := fault_of_lookupFunction failed
    exact .unknown named
  | arity finds different => exact .arity finds.named different
  | supply different =>
    rcases inside.supplied _ _ rfl with rfl | enough
    · exact .entry fun none => different (congrArg List.length none).symm
    · exact absurd enough different
  | parameter enough arrives failed =>
    obtain rfl := fault_of_defineVariable failed
    exact .parameter (List.of_mem_zip arrives.mem).1
  | escape enough binds done controls => exact .escape
  | declare evaluated failed =>
    obtain rfl := fault_of_defineVariable failed
    exact .declared
  | nested => exact .nested

/-- Where an error comes from: it arises at a stage to which the first one leads, at one of the
nodes, whose line it has, and which can raise it. -/
def Error.Traced (sink : Sink) (nodes : Set Node) (first : Stage) (error : Error) : Prop :=
  ∃ stage, Relation.ReflTransGen (Comes sink) first stage ∧ Raised sink stage error ∧
    stage.node ∈ nodes ∧ error.line = some stage.node.line ∧ stage.node.Raises error.cause

private theorem Stage.Fails.traced (failed : stage.Fails sink error)
    (closed : ∀ node ∈ nodes, ∀ part ∈ node.parts, part ∈ nodes) (inside : stage.Inside nodes) :
    error.Traced sink nodes stage := by
  obtain ⟨inner, reaches, raised⟩ := Stage.fails_iff.mp failed
  have innermost : inner.Inside nodes := by
    clear raised
    induction reaches with
    | refl => exact inside
    | tail _ comes ih => exact comes.inside closed ih
  exact ⟨inner, reaches, raised, innermost.member, raised.line, raised.raises innermost⟩

/-- From a machine, an action comes to take another one, from the machine `start`. -/
inductive Enters {β : Type} (inner : Exec β) (start : Machine) :
    (α : Type) → Exec α → Machine → Prop where
  | here : Enters inner start β inner start
  | first {α γ : Type} {action : Exec α} {next : α → Exec γ} {machine : Machine}
      (inside : Enters inner start α action machine) :
      Enters inner start γ (action >>= next) machine
  | next {α γ : Type} {action : Exec α} {next : α → Exec γ} {machine middle : Machine} {value : α}
      (reached : action machine = .ok value middle)
      (inside : Enters inner start γ (next value) middle) :
      Enters inner start γ (action >>= next) machine
  | located {α : Type} {action : Exec α} {line : Nat} {machine : Machine}
      (inside : Enters inner start α action machine) :
      Enters inner start α (locate line action) machine
  | inScope {α : Type} {action : Exec α} {machine : Machine}
      (inside : Enters inner start α action { machine with chain := machine.chain.push }) :
      Enters inner start α (Exec.inScope action) machine

/-- An error that has a line goes out through all that was entered, and nothing on its way gives
it another one. -/
theorem Enters.fails {α β : Type} {inner : Exec β} {start machine : Machine} {action : Exec α}
    (enters : Enters inner start α action machine) {line : Nat} (placed : error.line = some line)
    (failed : Fails inner start error) : Fails action machine error := by
  induction enters with
  | here => exact failed
  | first _ ih => exact fails_first ih
  | next reached _ ih => exact fails_next reached ih
  | located _ ih => exact fails_placed ih placed _
  | inScope _ ih => exact fails_inScope.mpr ih

end Run

namespace Session

open Scriptlet.Run

/-- All nodes of the functions that are loaded. -/
def nodes (session : Session) : Set Node :=
  { node | ∃ entry ∈ session.globals.functions, node.Within (.function entry.2) }

/-- The machine in which a run calls its function. -/
def machine (session : Session) : Machine := ⟨Chain.root session.globals, session.console⟩

private theorem nodes_closed (session : Session) :
    ∀ node ∈ session.nodes, ∀ part ∈ node.parts, part ∈ session.nodes := by
  rintro node ⟨entry, loaded, within⟩ part below
  exact ⟨entry, loaded, within.tail below⟩

private theorem machine_calls (session : Session) : session.machine.Calls session.nodes := by
  rintro scope (_ | ⟨_, ⟨⟩⟩) entry loaded
  exact ⟨entry, loaded, .refl⟩

private theorem function_mem_nodes {session : Session} {name : String} {function : Function}
    (found : session.globals.function? name = some function) :
    Node.function function ∈ session.nodes := by
  obtain ⟨front, back, same, _⟩ := List.lookup_eq_some_iff.mp found
  exact ⟨(name, function), by simp [same], .refl⟩

/-- A run ends like the call of its function, once the sink is flushed. -/
theorem run_result {session : Session} {entry : String} {function : Function}
    (found : session.globals.function? entry = some function) (sink : Sink) (steps : Nat) :
    (session.run sink steps entry).1 =
      flushed sink
        (match callFunction (execute sink steps) function [] function.line session.machine with
        | .ok value _ => .ok value
        | .error reason _ => .error reason) := by
  rw [run, found, machine]
  simp only
  generalize callFunction _ _ _ _ _ = outcome
  cases outcome <;> rfl

/-- The call with which a run begins. -/
def firstStage (session : Session) (steps : Nat) (function : Function) : Stage :=
  ⟨steps, .call function [], session.machine⟩

private theorem firstStage_fails {session : Session} {sink : Sink} {steps : Nat}
    {function : Function} {error : Error} : (session.firstStage steps function).Fails sink error ↔
      Fails (callFunction (execute sink steps) function [] function.line) session.machine error :=
  Iff.rfl

private theorem firstStage_inside {session : Session} {steps : Nat} {name : String}
    {function : Function} (found : session.globals.function? name = some function) :
    (session.firstStage steps function).Inside session.nodes where
  member := function_mem_nodes found
  calls := session.machine_calls
  supplied := by
    rintro _ _ ⟨⟩
    exact .inl rfl

/-- Whose error it is that a run ends with. It has no line if there is no function to call or if
the sink cannot be flushed. Any other error arises at a node of the loaded functions, to which the
call leads from one stage to the next, and has the line of that node. An error that has a line at
any place that the call comes to is the error of the call, and so is the error of every stage to
which it leads. -/
theorem run_attributes (session : Session) (sink : Sink) (steps : Nat) (entry : String) :
    (∀ error, (session.run sink steps entry).1 = .error (.failed error) →
      (session.globals.function? entry = none ∧
        error = .unplaced (.scope (.undefinedFunction entry))) ∨
      (∃ reason, sink.flushRefusal = some reason ∧ error = .unplaced (.writeRefused reason)) ∨
      ∃ function, session.globals.function? entry = some function ∧
        error.Traced sink session.nodes (session.firstStage steps function)) ∧
    ∀ function, session.globals.function? entry = some function →
      (∀ (α : Type) (place : Exec α) (start after : Machine) (error : Error) (line : Nat),
        Enters place start _ (callFunction (execute sink steps) function [] function.line)
          session.machine →
        place start = .error (.failed error) after → error.line = some line →
          (session.run sink steps entry).1 = flushed sink (.error (.failed error))) ∧
      ∀ (stage : Stage) (error : Error),
        Relation.ReflTransGen (Comes sink) (session.firstStage steps function) stage →
        stage.Fails sink error →
          (session.run sink steps entry).1 = flushed sink (.error (.failed error)) := by
  constructor
  · intro error failed
    cases found : session.globals.function? entry with
    | none =>
      rw [run, found] at failed
      cases failed
      exact .inl ⟨rfl, rfl⟩
    | some function =>
      rw [run_result found] at failed
      rcases flushed_failed failed with called | refused
      · refine .inr (.inr ⟨function, rfl, ?_⟩)
        have fails : (session.firstStage steps function).Fails sink error := by
          rw [firstStage_fails]
          cases outcome : callFunction (execute sink steps) function [] function.line
              session.machine with
          | ok value after =>
            rw [outcome] at called
            cases called
          | error reason after =>
            rw [outcome] at called
            cases called
            exact ⟨after, outcome⟩
        exact fails.traced session.nodes_closed (firstStage_inside found)
      · exact .inr (.inl refused)
  · intro function found
    constructor
    · intro α place start after error line enters failed placed
      obtain ⟨final, outcome⟩ := enters.fails placed ⟨after, failed⟩
      rw [run_result found, outcome]
    · intro stage error reaches failed
      obtain ⟨final, outcome⟩ := firstStage_fails.mp (Stage.fails_of_reaches reaches failed)
      rw [run_result found, outcome]

/-- A function that prints on its second line what cannot be divided on its third. -/
def dividing : Function :=
  ⟨"main", [], ⟨"int", 0⟩,
    [.evaluate (.call (.identifier "print" 2)
      [.binary (.literal (.int 1) 3) .divide (.literal (.int 0) 4) 3] 2) 2], 1, 1⟩

def dividingSession : Session := ⟨⟨[], [("main", dividing)]⟩, Console.empty⟩

/-- The line is that of the division, and not that of the call around it. -/
theorem run_dividingSession :
    (dividingSession.run .accepting 9 "main").1 =
        .error (.failed (.atLine (.operator (.zeroDivisor .divide)) 3)) ∧
      Error.Traced .accepting dividingSession.nodes (dividingSession.firstStage 9 dividing)
        (.atLine (.operator (.zeroDivisor .divide)) 3) := by
  have failed : (dividingSession.run .accepting 9 "main").1 =
      .error (.failed (.atLine (.operator (.zeroDivisor .divide)) 3)) := by rfl
  refine ⟨failed, ?_⟩
  rcases (run_attributes dividingSession .accepting 9 "main").1 _ failed with
    ⟨_, ⟨⟩⟩ | ⟨_, ⟨⟩, _⟩ | ⟨function, found, traced⟩
  cases found
  exact traced

end Session

end Scriptlet
