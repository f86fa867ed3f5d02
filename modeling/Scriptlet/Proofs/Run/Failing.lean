import Scriptlet.Proofs.Run.Correspondence

/-! When an action fails, and with which error: a law for each way in which the rules put actions
together. An action that takes items one after the other fails at one of them, behind others
that it has taken. -/
namespace Scriptlet.Run

open Exec

/-- An action ends with an error. -/
def Fails {α : Type} (action : Exec α) (machine : Machine) (error : Error) : Prop :=
  ∃ after, action machine = .error (.failed error) after

variable {α β item : Type} {machine : Machine} {error : Error}

@[simp] theorem fails_pure (value : α) : ¬ Fails (pure value) machine error := by
  rintro ⟨_, ⟨⟩⟩

@[simp] theorem fails_unfinished : ¬ Fails (unfinished : Exec α) machine error := by
  rintro ⟨_, ⟨⟩⟩

@[simp] theorem fails_failAt {line : Nat} {cause : Cause} :
    Fails (failAt line cause : Exec α) machine error ↔ error = .atLine cause line := by
  constructor
  · rintro ⟨_, ⟨⟩⟩
    rfl
  · rintro rfl
    exact ⟨machine, rfl⟩

@[simp] theorem fails_raise {cause : Cause} :
    Fails (raise cause : Exec α) machine error ↔ error = .unplaced cause := by
  constructor
  · rintro ⟨_, ⟨⟩⟩
    rfl
  · rintro rfl
    exact ⟨machine, rfl⟩

theorem bind_eq_ok {action : Exec α} {next : α → Exec β} {value : β} {after : Machine} :
    (action >>= next) machine = .ok value after ↔
      ∃ first middle, action machine = .ok first middle ∧ next first middle = .ok value after := by
  rw [bind_apply]
  cases action machine with
  | ok first middle =>
    constructor
    · exact fun reached => ⟨first, middle, rfl, reached⟩
    · rintro ⟨_, _, ⟨⟩, reached⟩
      exact reached
  | error reason middle => simp

theorem fails_bind {action : Exec α} {next : α → Exec β} :
    Fails (action >>= next) machine error ↔
      Fails action machine error ∨
        ∃ value middle, action machine = .ok value middle ∧ Fails (next value) middle error := by
  simp only [Fails, bind_apply]
  cases action machine with
  | ok first middle =>
    constructor
    · exact fun failed => .inr ⟨first, middle, rfl, failed⟩
    · rintro (⟨_, ⟨⟩⟩ | ⟨_, _, ⟨⟩, failed⟩)
      exact failed
  | error reason middle => simp

theorem fails_first {action : Exec α} {next : α → Exec β} (failed : Fails action machine error) :
    Fails (action >>= next) machine error :=
  fails_bind.mpr (.inl failed)

theorem fails_next {action : Exec α} {next : α → Exec β} {value : α} {middle : Machine}
    (reached : action machine = .ok value middle) (failed : Fails (next value) middle error) :
    Fails (action >>= next) machine error :=
  fails_bind.mpr (.inr ⟨value, middle, reached, failed⟩)

@[simp] theorem fails_bind_pure {action : Exec α} {change : α → β} :
    Fails (action >>= fun value => pure (change value)) machine error ↔
      Fails action machine error := by
  rw [fails_bind]
  simp

@[simp] theorem fails_map {change : α → β} {action : Exec α} :
    Fails (change <$> action) machine error ↔ Fails action machine error := by
  rw [map_eq_pure_bind, fails_bind_pure]

theorem fails_locate {line : Nat} {action : Exec α} :
    Fails (locate line action) machine error ↔
      ∃ inner, Fails action machine inner ∧ error = inner.withLine line := by
  simp only [Fails, locate, EStateM.adaptExcept]
  cases action machine with
  | ok value after => simp
  | error reason after => cases reason <;> simp [Interruption.withLine, eq_comm]

theorem withLine_of_line {line : Nat} (placed : error.line = some line)
    (other : Nat) : error.withLine other = error := by
  rw [Located.withLine, placed]
  exact congrArg (Located.mk error.cause) placed.symm

/-- An error that has a line is not given another one. -/
theorem fails_placed {action : Exec α} {own : Nat}
    (failed : Fails action machine error) (placed : error.line = some own) (line : Nat) :
    Fails (locate line action) machine error :=
  fails_locate.mpr ⟨error, failed, (withLine_of_line placed line).symm⟩

/-- The machine in a scope that was just entered. -/
def Machine.inside (machine : Machine) : Machine := { machine with chain := machine.chain.push }

theorem fails_inScope {action : Exec α} :
    Fails (inScope action) machine error ↔ Fails action machine.inside error := by
  simp only [Fails, inScope, Machine.inside]
  cases action { machine with chain := machine.chain.push } <;> simp

private theorem inScope_eq_ok {action : Exec α} {value : α} {after : Machine} :
    inScope action machine = .ok value after ↔
      ∃ ended, action machine.inside = .ok value ended ∧
        after = { ended with chain := ended.chain.pop } := by
  simp only [inScope, Machine.inside]
  cases action { machine with chain := machine.chain.push } with
  | ok found ended =>
    constructor
    · rintro ⟨⟩
      exact ⟨ended, rfl, rfl⟩
    · rintro ⟨_, ⟨⟩, rfl⟩
      rfl
  | error reason ended => simp

section

variable {line : Nat}

/-- What fails without a line has the line at which it is located. -/
theorem fails_located {fault : Type} {action : Exec α} {cause : fault → Cause}
    {result : Except fault β}
    (law : ∀ error, Fails action machine error ↔
      ∃ fault, result = .error fault ∧ error = .unplaced (cause fault)) :
    Fails (locate line action) machine error ↔
      ∃ fault, result = .error fault ∧ error = .atLine (cause fault) line := by
  rw [fails_locate]
  constructor
  · rintro ⟨inner, failed, rfl⟩
    obtain ⟨fault, refused, rfl⟩ := (law inner).mp failed
    exact ⟨fault, refused, rfl⟩
  · rintro ⟨fault, refused, rfl⟩
    exact ⟨_, (law _).mpr ⟨fault, refused, rfl⟩, rfl⟩

theorem fails_operator {result : Except OperatorFault α} :
    Fails (locate line (operator result)) machine error ↔
      ∃ fault, result = .error fault ∧ error = .atLine (.operator fault) line := by
  apply fails_located
  intro error
  cases result <;> simp [operator]

private theorem fails_scope {result : Except ScopeFault α} :
    Fails (scope result) machine error ↔
      ∃ fault, result = .error fault ∧ error = .unplaced (.scope fault) := by
  cases result <;> simp [scope]

theorem fails_lookup {name : String} :
    Fails (locate line (lookup name)) machine error ↔
      ∃ fault, machine.chain.lookup name = .error fault ∧ error = .atLine (.scope fault) line :=
  fails_located fun _ => fails_scope

theorem fails_lookupFunction {name : String} :
    Fails (locate line (lookupFunction name)) machine error ↔
      ∃ fault, machine.chain.lookupFunction name = .error fault ∧
        error = .atLine (.scope fault) line :=
  fails_located fun _ => fails_scope

theorem lookupFunction_eq_ok {name : String} {function : Function} {after : Machine} :
    locate line (lookupFunction name) machine = .ok function after ↔
      machine.chain.lookupFunction name = .ok function ∧ after = machine := by
  change EStateM.adaptExcept _ (scope (machine.chain.lookupFunction name)) machine = _ ↔ _
  cases machine.chain.lookupFunction name with
  | ok found =>
    constructor
    · rintro ⟨⟩
      exact ⟨rfl, rfl⟩
    · rintro ⟨⟨⟩, rfl⟩
      rfl
  | error fault =>
    constructor
    · rintro ⟨⟩
    · rintro ⟨⟨⟩, _⟩

/-- An action that does nothing but change the chain. -/
theorem fails_change {action : Exec Unit} (change : Chain → Except ScopeFault Chain)
    (run : ∀ machine, action machine =
      match change machine.chain with
      | .ok chain => .ok () { machine with chain }
      | .error fault => .error (.failed (.unplaced (.scope fault))) machine) :
    Fails (locate line action) machine error ↔
      ∃ fault, change machine.chain = .error fault ∧ error = .atLine (.scope fault) line := by
  apply fails_located
  intro error
  rw [Fails, run]
  cases change machine.chain <;> simp [eq_comm]

theorem fails_assign {name : String} {value : Value} :
    Fails (locate line (assign name value)) machine error ↔
      ∃ fault, machine.chain.assign name value = .error fault ∧
        error = .atLine (.scope fault) line :=
  fails_change (·.assign name value) (Correspondence.assign_apply name value)

theorem fails_define {name : String} {value : Option Value} :
    Fails (locate line (define name value)) machine error ↔
      ∃ fault, machine.chain.defineVariable name value = .error fault ∧
        error = .atLine (.scope fault) line :=
  fails_change (·.defineVariable name value) (Correspondence.define_apply name value)

end

theorem fails_emit {sink : Sink} {text : String} :
    Fails (emit sink text) machine error ↔
      text.isEmpty = false ∧ ∃ reason, sink.refusal machine.console.offers text = some reason ∧
        error = .unplaced (.writeRefused reason) := by
  rw [emit]
  cases empty : text.isEmpty with
  | true => simp
  | false =>
    simp only [Bool.false_eq_true, if_false, true_and]
    rw [Fails, Correspondence.offer_apply]
    cases sink.refusal machine.console.offers text <;> simp [eq_comm]

/-- Taking items one after the other, as long as their results let it go on, comes to one of
them. -/
inductive Arrives (act : item → Exec α) (goesOn : α → Prop) :
    List item → Machine → item → Machine → Prop where
  | here {first : item} {rest : List item} {machine : Machine} :
      Arrives act goesOn (first :: rest) machine first machine
  | later {first one : item} {rest : List item} {value : α} {machine middle reached : Machine}
      (taken : act first machine = .ok value middle) (goes : goesOn value)
      (arrives : Arrives act goesOn rest middle one reached) :
      Arrives act goesOn (first :: rest) machine one reached

theorem Arrives.mem {act : item → Exec α} {goesOn : α → Prop} {items : List item} {one : item}
    {reached : Machine} (arrives : Arrives act goesOn items machine one reached) : one ∈ items := by
  induction arrives with
  | here => exact List.mem_cons_self ..
  | later _ _ _ ih => exact List.mem_cons_of_mem _ ih

private theorem fails_items {act : item → Exec α} {goesOn : α → Prop} {run : List item → Exec β}
    (nil : ∀ machine error, ¬ Fails (run []) machine error)
    (cons : ∀ first rest machine error, Fails (run (first :: rest)) machine error ↔
      Fails (act first) machine error ∨ ∃ value middle, act first machine = .ok value middle ∧
        goesOn value ∧ Fails (run rest) middle error)
    (items : List item) :
    Fails (run items) machine error ↔
      ∃ one reached, Arrives act goesOn items machine one reached ∧
        Fails (act one) reached error := by
  induction items generalizing machine with
  | nil =>
    simp only [nil, false_iff]
    rintro ⟨one, reached, ⟨⟩, _⟩
  | cons first rest ih =>
    rw [cons]
    constructor
    · rintro (failed | ⟨value, middle, taken, goes, failed⟩)
      · exact ⟨first, machine, .here, failed⟩
      · obtain ⟨one, reached, arrives, failed⟩ := ih.mp failed
        exact ⟨one, reached, .later taken goes arrives, failed⟩
    · rintro ⟨one, reached, arrives, failed⟩
      cases arrives with
      | here => exact .inl failed
      | later taken goes arrives =>
        exact .inr ⟨_, _, taken, goes, ih.mpr ⟨one, reached, arrives, failed⟩⟩

theorem fails_mapM {act : item → Exec α} {items : List item} :
    Fails (items.mapM act) machine error ↔
      ∃ one reached, Arrives act (fun _ => True) items machine one reached ∧
        Fails (act one) reached error := by
  apply fails_items
  · intro machine error
    exact fails_pure []
  · intro first rest machine error
    rw [List.mapM_cons]
    simp [fails_bind]

theorem length_of_mapM {act : item → Exec α} {items : List item} {values : List α}
    {after : Machine} (taken : items.mapM act machine = .ok values after) :
    values.length = items.length := by
  induction items generalizing machine values with
  | nil =>
    cases taken
    rfl
  | cons first rest ih =>
    rw [List.mapM_cons] at taken
    obtain ⟨value, middle, _, others⟩ := bind_eq_ok.mp taken
    obtain ⟨more, last, mapped, ⟨⟩⟩ := bind_eq_ok.mp others
    exact congrArg Nat.succ (ih mapped)

theorem fails_optionMapM {act : item → Exec α} {one : Option item} :
    Fails (one.mapM act) machine error ↔ ∃ present ∈ one, Fails (act present) machine error := by
  cases one with
  | none => simp
  | some present => simp

section

variable {sink : Sink} {evaluate : Expr → Exec (Option Value)} {execute : Stmt → Exec Signal}

theorem fails_sequence {statements : List Stmt} :
    Fails (sequence execute statements) machine error ↔
      ∃ statement reached,
        Arrives execute (· = .normal) statements machine statement reached ∧
          Fails (execute statement) reached error := by
  apply fails_items
  · intro machine error
    exact fails_pure _
  · intro first rest machine error
    rw [sequence, fails_bind]
    refine or_congr Iff.rfl (exists₂_congr fun signal middle => and_congr_right fun _ => ?_)
    cases signal <;> simp

/-- Printing one argument. -/
def printOne (sink : Sink) (evaluate : Expr → Exec (Option Value)) (argument : Expr) :
    Exec Unit := do
  printResult sink (← evaluate argument)

theorem fails_printAll {arguments : List Expr} :
    Fails (printAll sink evaluate arguments) machine error ↔
      ∃ argument reached,
        Arrives (printOne sink evaluate) (fun _ => True) arguments machine argument reached ∧
          Fails (printOne sink evaluate argument) reached error := by
  apply fails_items
  · intro machine error
    exact fails_pure _
  · intro first rest machine error
    have apart : printAll sink evaluate (first :: rest) =
        printOne sink evaluate first >>= fun _ => printAll sink evaluate rest := by
      rw [printAll, printOne, bind_assoc]
    rw [apart, fails_bind]
    simp

/-- Binding one parameter. -/
def bindOne (line : Nat) (binding : Parameter × Value) : Exec Unit :=
  locate line (define binding.1.name (some binding.2))

theorem fails_bindParameters {line : Nat} {bindings : List (Parameter × Value)} :
    Fails (bindParameters line bindings) machine error ↔
      ∃ binding reached, Arrives (bindOne line) (fun _ => True) bindings machine binding reached ∧
        Fails (bindOne line binding) reached error := by
  apply fails_items
  · intro machine error
    exact fails_pure _
  · intro first rest machine error
    rw [bindParameters, fails_bind]
    simp [bindOne]

theorem fails_callFunction {function : Function} {values : List Value} {line : Nat}
    (enough : values.length = function.parameters.length) :
    Fails (callFunction execute function values line) machine error ↔
      Fails (bindParameters function.line (function.parameters.zip values)) machine.inside error ∨
        ∃ bound, bindParameters function.line (function.parameters.zip values) machine.inside =
            .ok () bound ∧
          (Fails (sequence execute function.body) bound.inside error ∨
            ∃ signal ended, sequence execute function.body bound.inside = .ok signal ended ∧
              signal.controlsLoop = true ∧
              error = .atLine (.escapedLoopControl function.name) function.line) := by
  rw [callFunction, if_neg (not_not_intro enough), fails_bind, fails_inScope, fails_bind]
  constructor
  · rintro ((failed | ⟨_, bound, binds, failed⟩) | ⟨signal, after, done, failed⟩)
    · exact .inl failed
    · exact .inr ⟨bound, binds, .inl (fails_inScope.mp failed)⟩
    · obtain ⟨left, inside, rfl⟩ := inScope_eq_ok.mp done
      obtain ⟨_, bound, binds, outer⟩ := bind_eq_ok.mp inside
      obtain ⟨ended, finished, rfl⟩ := inScope_eq_ok.mp outer
      cases signal with
      | normal => exact absurd failed (fails_pure _)
      | returned value => exact absurd failed (fails_pure _)
      | left => exact .inr ⟨bound, binds, .inr ⟨_, ended, finished, rfl, fails_failAt.mp failed⟩⟩
      | proceeded =>
        exact .inr ⟨bound, binds, .inr ⟨_, ended, finished, rfl, fails_failAt.mp failed⟩⟩
  · rintro (failed | ⟨bound, binds, failed | ⟨signal, ended, finished, controls, rfl⟩⟩)
    · exact .inl (.inl failed)
    · exact .inl (.inr ⟨(), bound, binds, fails_inScope.mpr failed⟩)
    · have inner := inScope_eq_ok.mpr ⟨ended, finished, rfl⟩
      refine .inr ⟨signal, _, inScope_eq_ok.mpr
        ⟨_, bind_eq_ok.mpr ⟨(), bound, binds, inner⟩, rfl⟩, ?_⟩
      cases signal with
      | normal => cases controls
      | returned value => cases controls
      | left => exact fails_failAt.mpr rfl
      | proceeded => exact fails_failAt.mpr rfl

/-- Without as many values as parameters, a function is not called. -/
theorem fails_callFunction_arity {function : Function} {values : List Value} {line : Nat}
    (different : values.length ≠ function.parameters.length) :
    Fails (callFunction execute function values line) machine error ↔
      error = .atLine (.arity function.name function.parameters.length values.length) line := by
  rw [callFunction, if_pos different, fails_failAt]

theorem fails_takeStep {increment : Option Stmt} :
    Fails (takeStep execute increment) machine error ↔
      ∃ step, increment = some step ∧ Fails (execute step) machine error := by
  cases increment with
  | none => simp [takeStep]
  | some step => simp [takeStep]

/-- Whether the condition of a loop holds. -/
def conditionHolds (evaluate : Expr → Exec (Option Value)) (condition : Expr) : Exec Bool := do
  return (← valueOf evaluate condition).isTruthy

/-- A loop that may go round so many times comes to the beginning of a round. -/
inductive Repeats (test : Exec Bool) (body : Exec Signal) (step : Exec Unit) :
    Nat → Machine → Machine → Prop where
  | here {count : Nat} {machine : Machine} : Repeats test body step (count + 1) machine machine
  | normal {count : Nat} {machine tested ended reached : Machine}
      (holds : test machine = .ok true tested) (done : body tested = .ok .normal ended)
      (more : Repeats test body step count ended reached) :
      Repeats test body step (count + 1) machine reached
  | proceeded {count : Nat} {machine tested ended stepped reached : Machine}
      (holds : test machine = .ok true tested) (done : body tested = .ok .proceeded ended)
      (taken : step ended = .ok () stepped) (more : Repeats test body step count stepped reached) :
      Repeats test body step (count + 1) machine reached

/-- A round fails at its test, in its body, or where it goes on early. -/
def RoundFails (test : Exec Bool) (body : Exec Signal) (step : Exec Unit) (machine : Machine)
    (error : Error) : Prop :=
  Fails test machine error ∨ ∃ tested, test machine = .ok true tested ∧
    (Fails body tested error ∨
      ∃ ended, body tested = .ok .proceeded ended ∧ Fails step ended error)

private theorem fails_round {test : Exec Bool} {body : Exec Signal} {step : Exec Unit}
    {count : Nat} : Fails (repeatWhile test body step (count + 1)) machine error ↔
      RoundFails test body step machine error ∨
        ∃ tested ended, test machine = .ok true tested ∧
          (body tested = .ok .normal ended ∧
              Fails (repeatWhile test body step count) ended error ∨
            body tested = .ok .proceeded ended ∧ ∃ stepped, step ended = .ok () stepped ∧
              Fails (repeatWhile test body step count) stepped error) := by
  rw [repeatWhile, fails_bind]
  constructor
  · rintro (failed | ⟨_ | _, tested, holds, failed⟩)
    · exact .inl (.inl failed)
    · exact absurd failed (fails_pure _)
    · rcases fails_bind.mp failed with failed | ⟨signal, ended, done, failed⟩
      · exact .inl (.inr ⟨tested, holds, .inl failed⟩)
      · cases signal with
        | normal => exact .inr ⟨tested, ended, holds, .inl ⟨done, failed⟩⟩
        | left => exact absurd failed (fails_pure _)
        | returned value => exact absurd failed (fails_pure _)
        | proceeded =>
          rcases fails_bind.mp failed with failed | ⟨_, stepped, taken, failed⟩
          · exact .inl (.inr ⟨tested, holds, .inr ⟨ended, done, failed⟩⟩)
          · exact .inr ⟨tested, ended, holds, .inr ⟨done, stepped, taken, failed⟩⟩
  · rintro ((failed | ⟨tested, holds, inside⟩) | ⟨tested, ended, holds, inside⟩)
    · exact .inl failed
    · refine .inr ⟨true, tested, holds, fails_bind.mpr ?_⟩
      rcases inside with failed | ⟨ended, done, failed⟩
      · exact .inl failed
      · exact .inr ⟨.proceeded, ended, done, fails_bind.mpr (.inl failed)⟩
    · refine .inr ⟨true, tested, holds, fails_bind.mpr (.inr ?_)⟩
      rcases inside with ⟨done, failed⟩ | ⟨done, stepped, taken, failed⟩
      · exact ⟨.normal, ended, done, failed⟩
      · exact ⟨.proceeded, ended, done, fails_bind.mpr (.inr ⟨(), stepped, taken, failed⟩)⟩

theorem fails_repeatWhile {test : Exec Bool} {body : Exec Signal} {step : Exec Unit}
    {count : Nat} :
    Fails (repeatWhile test body step count) machine error ↔
      ∃ reached, Repeats test body step count machine reached ∧
        RoundFails test body step reached error := by
  induction count generalizing machine with
  | zero =>
    simp only [repeatWhile, fails_unfinished, false_iff]
    rintro ⟨reached, ⟨⟩, _⟩
  | succ count ih =>
    rw [fails_round]
    constructor
    · rintro (failed | ⟨tested, ended, holds, ⟨done, failed⟩ | ⟨done, stepped, taken, failed⟩⟩)
      · exact ⟨machine, .here, failed⟩
      · obtain ⟨reached, more, failed⟩ := ih.mp failed
        exact ⟨reached, .normal holds done more, failed⟩
      · obtain ⟨reached, more, failed⟩ := ih.mp failed
        exact ⟨reached, .proceeded holds done taken more, failed⟩
    · rintro ⟨reached, repeats, failed⟩
      cases repeats with
      | here => exact .inl failed
      | normal holds done more =>
        exact .inr ⟨_, _, holds, .inl ⟨done, ih.mpr ⟨reached, more, failed⟩⟩⟩
      | proceeded holds done taken more =>
        exact .inr ⟨_, _, holds, .inr ⟨done, _, taken, ih.mpr ⟨reached, more, failed⟩⟩⟩

variable {callee : Expr} {arguments : List Expr} {name : String} {function : Function} {line : Nat}

/-- A call by this name finds a function of the program. -/
structure Finds (machine : Machine) (callee : Expr) (name : String) (function : Function) :
    Prop where
  named : calleeName? callee = some name
  noBuiltin : Builtin.ofName? name = none
  found : machine.chain.lookupFunction name = .ok function

/-- A call of `print`. -/
structure Prints (callee : Expr) (name : String) : Prop where
  named : calleeName? callee = some name
  builtin : Builtin.ofName? name = some .print

theorem Prints.fails_call (prints : Prints callee name) :
    Fails (call sink evaluate execute callee arguments line) machine error ↔
      Fails (locate line (printAll sink evaluate arguments)) machine error := by
  simp only [call, prints.named, prints.builtin]
  rw [fails_bind]
  simp

theorem Finds.call_eq (finds : Finds machine callee name function) :
    call sink evaluate execute callee arguments line machine =
      (if arguments.length ≠ function.parameters.length then
        failAt line (.arity name function.parameters.length arguments.length)
      else do
        let values ← arguments.mapM (valueOf evaluate)
        callFunction execute function values line : Exec (Option Value)) machine := by
  simp only [call, finds.named, finds.noBuiltin]
  rw [bind_apply, lookupFunction_eq_ok.mpr ⟨finds.found, rfl⟩]

/-- With enough arguments, a call fails at one of them, or in the function. -/
theorem Finds.fails_call (finds : Finds machine callee name function)
    (enough : arguments.length = function.parameters.length) :
    Fails (call sink evaluate execute callee arguments line) machine error ↔
      Fails (arguments.mapM (valueOf evaluate)) machine error ∨
        ∃ values after, arguments.mapM (valueOf evaluate) machine = .ok values after ∧
          Fails (callFunction execute function values function.line) after error := by
  rw [Fails, finds.call_eq, if_neg (not_not_intro enough)]
  refine fails_bind.trans (or_congr Iff.rfl (exists₂_congr fun values after => ?_))
  refine and_congr_right fun taken => ?_
  have supplied := (length_of_mapM taken).trans enough
  rw [fails_callFunction supplied, fails_callFunction supplied]

end

end Scriptlet.Run
