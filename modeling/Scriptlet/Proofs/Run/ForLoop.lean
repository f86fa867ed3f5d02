import Scriptlet.Proofs.Grammar.StatementSound
import Scriptlet.Proofs.Run.Padding

/-! What `for` loops mean. Their rules are written down here for the parts of a loop, and the
tree that a loop is read as is shown to have the same outcomes, whatever its parts are and
wherever it is executed. -/
namespace Scriptlet.Run

open Exec

/-- An outcome that a run reaches if it is allowed enough steps. A run with no such outcome
goes on for ever. -/
def Ends {α : Type} (run : Nat → Exec α) (machine : Machine) (outcome : Outcome α) : Prop :=
  (∀ after, outcome ≠ .error .unfinished after) ∧ ∃ steps, run steps machine = outcome

/-- The parts of a `for` loop. All but the body may be left out. -/
structure ForParts where
  initializer : Option Stmt
  condition : Option Expr
  increment : Option Expr
  body : Stmt

/-- Rounds of a loop: the step is taken behind every round, whether its body ended normally
or went on with the next round, unless the loop was left or returned from. -/
def roundsWhile (test : Exec Bool) (body : Exec Signal) (step : Exec Unit) : Nat → Exec Signal
  | 0 => unfinished
  | count + 1 => do
    if ← test then
      match ← body with
      | .normal =>
        step
        roundsWhile test body step count
      | .proceeded =>
        step
        roundsWhile test body step count
      | .left => return .normal
      | .returned value => return .returned value
    else return .normal

namespace ForParts

variable (sink : Sink) (parts : ForParts)

def start (steps : Nat) : Exec Unit :=
  match parts.initializer with
  | some first => do
    let _ ← execute sink steps first
    return ()
  | none => return ()

/-- A condition that is left out is true. -/
def test (steps : Nat) : Exec Bool :=
  match parts.condition with
  | some condition => do return (← valueOf (evaluate sink steps) condition).isTruthy
  | none => return true

def step (steps : Nat) : Exec Unit :=
  match parts.increment with
  | some increment => do
    let _ ← evaluate sink steps increment
    return ()
  | none => return ()

/-- The rule of `for` loops: the initializer, the tests, the bodies and the increments all run
in one scope of the loop. -/
def run (steps : Nat) : Exec Signal :=
  inScope do
    parts.start sink steps
    roundsWhile (parts.test sink steps) (execute sink steps parts.body) (parts.step sink steps)
      steps

end ForParts

/-- A body and the step behind it, if the body ends normally. -/
def thenStep (body : Exec Signal) (step : Exec Unit) : Exec Signal := do
  match ← body with
  | .normal =>
    step
    return .normal
  | signal => return signal

private theorem roundsWhile_eq_repeatWhile (test : Exec Bool) (body : Exec Signal)
    (step : Exec Unit) (count : Nat) :
    roundsWhile test body step count = repeatWhile test (thenStep body step) step count := by
  induction count with
  | zero => rfl
  | succ count ih =>
    simp only [roundsWhile, repeatWhile, thenStep, bind_assoc, ih]
    congr 1
    funext holds
    cases holds with
    | false => rfl
    | true =>
      simp only [↓reduceIte]
      congr 1
      funext signal
      cases signal <;> simp

private theorem Outcome.Matches.eq {α : Type} {first second : Outcome α}
    (matched : Outcome.Matches Eq Eq Eq first second) :
    (∃ machine, first = .error .unfinished machine) ∨ first = second := by
  cases matched with
  | unfinished => exact .inl ⟨_, rfl⟩
  | ok same machines => exact .inr (by rw [same, machines])
  | failed same machines => exact .inr (by rw [same, machines])

private theorem Refines.trans {α : Type} {first second third : Exec α}
    (start : Refines Eq Eq Eq first second) (rest : Refines Eq Eq Eq second third) :
    Refines Eq Eq Eq first third := by
  rintro machine _ rfl
  rcases (start machine machine rfl).eq with ⟨after, same⟩ | same
  · rw [same]
    exact .unfinished
  · rw [same]
    exact rest machine machine rfl

/-- Two runs refine each other, from alike machines and with some steps more. -/
structure Equivalent {α : Type} (relation : ScopeRelation) (depth lag : Nat)
    (left right : Nat → Exec α) : Prop where
  forth {steps more : Nat} : steps + lag ≤ more →
    Refines (relation.machines depth) Eq Eq (left steps) (right more)
  back {steps more : Nat} : steps + lag ≤ more →
    Refines (relation.symm.machines depth) Eq Eq (right steps) (left more)

namespace Equivalent

variable {α β : Type} {relation : ScopeRelation} {depth lag : Nat} {left right : Nat → Exec α}

theorem ends {machine : Machine} {outcome : Outcome α}
    (equivalent : Equivalent .identity depth lag left right) :
    Ends left machine outcome ↔ Ends right machine outcome := by
  have carry {first second : Exec α} (refines : Refines Eq Eq Eq first second)
      (finished : ∀ after, outcome ≠ .error .unfinished after)
      (reached : first machine = outcome) : second machine = outcome := by
    rcases (refines machine machine rfl).eq with ⟨after, same⟩ | same
    · exact absurd (reached.symm.trans same) (finished after)
    · exact same.symm.trans reached
  have forth {steps : Nat} := equivalent.forth (Nat.le_refl (steps + lag))
  have back {steps : Nat} := equivalent.back (Nat.le_refl (steps + lag))
  rw [identity_machines] at forth
  rw [symm_identity_machines] at back
  constructor
  · rintro ⟨finished, steps, reached⟩
    exact ⟨finished, steps + lag, carry forth finished reached⟩
  · rintro ⟨finished, steps, reached⟩
    exact ⟨finished, steps + lag, carry back finished reached⟩

theorem flip (equivalent : Equivalent .identity depth lag left right) :
    Equivalent .identity depth lag right left := by
  constructor
  · intro steps more enough
    have back := equivalent.back enough
    rwa [symm_identity_machines, ← identity_machines depth] at back
  · intro steps more enough
    have forth := equivalent.forth enough
    rwa [identity_machines, ← symm_identity_machines depth] at forth

theorem later {longer : Nat} (equivalent : Equivalent relation depth lag left right)
    (more : lag ≤ longer) : Equivalent relation depth longer left right :=
  ⟨fun enough => equivalent.forth (by omega), fun enough => equivalent.back (by omega)⟩

theorem trans {middle : Nat → Exec α} {wait : Nat}
    (first : Equivalent .identity depth wait left middle)
    (second : Equivalent .identity depth lag middle right) :
    Equivalent .identity depth (wait + lag) left right := by
  constructor
  · intro steps more enough
    have start := first.forth (Nat.le_refl (steps + wait))
    have finish := second.forth (show steps + wait + lag ≤ more by omega)
    rw [identity_machines] at *
    exact start.trans finish
  · intro steps more enough
    have start := second.back (Nat.le_refl (steps + lag))
    have finish := first.back (show steps + lag + wait ≤ more by omega)
    rw [symm_identity_machines] at *
    exact start.trans finish

theorem ofEq {other : Nat → Exec α} (same : ∀ steps, left steps = other steps)
    (equivalent : Equivalent relation depth lag other right) :
    Equivalent relation depth lag left right := by
  rwa [funext same]

theorem pure {value : α} :
    Equivalent relation depth lag (fun _ => pure value) (fun _ => pure value) :=
  ⟨fun _ => .pure rfl, fun _ => .pure rfl⟩

theorem bind {next follow : Nat → α → Exec β} (first : Equivalent relation depth lag left right)
    (rest : ∀ value, Equivalent relation depth lag (next · value) (follow · value)) :
    Equivalent relation depth lag (fun steps => left steps >>= next steps)
      (fun steps => right steps >>= follow steps) := by
  constructor
  · intro steps more enough
    refine (first.forth enough).bind ?_
    rintro value _ rfl
    exact (rest value).forth enough
  · intro steps more enough
    refine (first.back enough).bind ?_
    rintro value _ rfl
    exact (rest value).back enough

/-- A run whose first step does nothing but start another. -/
theorem ofStep (nothing : left 0 = unfinished)
    (equivalent : Equivalent relation depth lag (fun steps => left (steps + 1)) right) :
    Equivalent relation depth (lag + 1) left right := by
  constructor
  · intro steps more enough
    cases steps with
    | zero =>
      rw [nothing]
      exact .unfinished
    | succ steps => exact equivalent.forth (by omega)
  · intro steps more enough
    obtain ⟨more, rfl⟩ : ∃ less, more = less + 1 := ⟨more - 1, by omega⟩
    exact equivalent.back (by omega)

theorem repeatWhile {test otherTest : Nat → Exec Bool} {body otherBody : Nat → Exec Signal}
    {step otherStep : Nat → Exec Unit} (tests : Equivalent relation depth lag test otherTest)
    (bodies : Equivalent relation depth lag body otherBody)
    (steps : Equivalent relation depth lag step otherStep) :
    Equivalent relation depth lag
      (fun count => Run.repeatWhile (test count) (body count) (step count) count)
      (fun count =>
        Run.repeatWhile (otherTest count) (otherBody count) (otherStep count) count) := by
  constructor
  · intro count more enough
    exact (Refines.repeatWhile (tests.forth enough) (bodies.forth enough) (steps.forth enough)
      (by omega)).weaken fun _ _ signals => signals.1
  · intro count more enough
    exact (Refines.repeatWhile (tests.back enough) (bodies.back enough) (steps.back enough)
      (by omega)).weaken fun _ _ signals => signals.1

theorem inScope (equivalent : Equivalent relation (depth + 1) lag left right) :
    Equivalent relation depth lag (fun steps => Exec.inScope (left steps))
      (fun steps => Exec.inScope (right steps)) :=
  ⟨fun enough => relation.quiet.refines_inScope (equivalent.forth enough),
    fun enough => relation.symm.quiet.refines_inScope (equivalent.back enough)⟩

theorem dropScope (equivalent : Equivalent .padded 0 lag left right) :
    Equivalent .identity depth lag (fun steps => Exec.inScope (left steps)) right := by
  constructor
  · intro steps more enough
    rw [identity_machines]
    exact (equivalent.forth enough).dropScope
  · intro steps more enough
    rw [symm_identity_machines]
    exact (equivalent.back enough).addScope

theorem ofEvaluate (sink : Sink) (expression : Expr) :
    Equivalent relation depth 0 (evaluate sink · expression) (evaluate sink · expression) :=
  ⟨fun enough => (relation.quiet.refines_steps sink enough).1 depth expression,
    fun enough => (relation.symm.quiet.refines_steps sink enough).1 depth expression⟩

theorem ofExecute (sink : Sink) (statement : Stmt) (admitted : depth = 0 → statement.Quiet) :
    Equivalent relation depth 0 (execute sink · statement) (execute sink · statement) := by
  constructor
  · intro steps more enough
    exact ((relation.quiet.refines_steps sink enough).2 depth true statement admitted).weaken
      fun _ _ signals => signals.1
  · intro steps more enough
    exact ((relation.symm.quiet.refines_steps sink enough).2 depth true statement admitted).weaken
      fun _ _ signals => signals.1

theorem ofTest (sink : Sink) (condition : Expr) :
    Equivalent relation depth 0
      (fun steps => do return (← valueOf (evaluate sink steps) condition).isTruthy)
      (fun steps => do return (← valueOf (evaluate sink steps) condition).isTruthy) :=
  ⟨fun enough => Correspondence.refines_test (relation.quiet.refines_steps sink enough).1 condition,
    fun enough =>
      Correspondence.refines_test (relation.symm.quiet.refines_steps sink enough).1 condition⟩

end Equivalent

/-- Going on with a signal as it is changes nothing. -/
theorem bind_signal {next : Signal → Exec Signal} (body : Exec Signal)
    (same : ∀ signal, next signal = pure signal) : (body >>= next) = body := by
  rw [funext same]
  exact bind_pure body

private theorem thenStep_pure (body : Exec Signal) : thenStep body (pure ()) = body :=
  bind_signal body fun signal => by cases signal <;> rfl

private theorem sequence_singleton (execute : Stmt → Exec Signal) (statement : Stmt) :
    sequence execute [statement] = execute statement :=
  bind_signal _ fun signal => by cases signal <;> rfl

namespace ForParts

variable {relation : ScopeRelation} {depth : Nat} (sink : Sink) (parts : ForParts)

/-- The condition as it stands in the tree. -/
def conditionTree (line : Nat) : Expr := parts.condition.getD (.literal (.bool true) line)

/-- The body as it stands in the tree, with the increment behind it. -/
def bodyTree (line : Nat) : Stmt :=
  match parts.increment with
  | some increment => .block [parts.body, .evaluate increment increment.line] line
  | none => parts.body

def loopTree (line conditionLine : Nat) : Stmt :=
  .loop (parts.conditionTree conditionLine) (parts.bodyTree line) parts.increment.isSome line

theorem equivalent_test_self : Equivalent relation depth 0 (parts.test sink) (parts.test sink) := by
  unfold test
  cases parts.condition with
  | none => exact .pure
  | some condition => exact .ofTest sink condition

theorem equivalent_test (line : Nat) :
    Equivalent relation depth 1
      (fun steps => do
        return (← valueOf (evaluate sink steps) (parts.conditionTree line)).isTruthy)
      (parts.test sink) := by
  unfold test conditionTree
  cases parts.condition with
  | some condition => exact (Equivalent.ofTest sink condition).later (Nat.zero_le 1)
  | none => exact .ofStep rfl .pure

theorem equivalent_step_self : Equivalent relation depth 0 (parts.step sink) (parts.step sink) := by
  unfold step
  cases parts.increment with
  | none => exact .pure
  | some increment => exact (Equivalent.ofEvaluate sink increment).bind fun _ => .pure

/-- The increment is taken as a statement in the tree. -/
theorem equivalent_step (line : Nat) :
    Equivalent relation depth 1
      (fun steps => takeStep (execute sink steps)
        (increment? parts.increment.isSome (parts.bodyTree line)))
      (parts.step sink) := by
  unfold step bodyTree
  cases parts.increment with
  | none => exact .pure
  | some increment =>
    have same (steps : Nat) :
        takeStep (execute sink (steps + 1)) (some (.evaluate increment increment.line)) =
          evaluate sink steps increment >>= fun _ => Pure.pure () := by
      simp [takeStep, execute, executeOver]
    exact .ofStep rfl (.ofEq same ((Equivalent.ofEvaluate sink increment).bind fun _ => .pure))

/-- In the tree, the body runs in a scope of its own if there is an increment, and so does the
increment behind it. -/
theorem equivalent_body (quiet : parts.body.Quiet) (line : Nat) :
    Equivalent .identity depth 2 (fun steps => execute sink steps (parts.bodyTree line))
      (fun steps => thenStep (execute sink steps parts.body) (parts.step sink steps)) := by
  unfold bodyTree step
  cases parts.increment with
  | none =>
    simp only [thenStep_pure]
    exact (Equivalent.ofExecute sink parts.body fun _ => quiet).later (Nat.zero_le 2)
  | some increment =>
    have behind : Equivalent .padded 0 1
        (fun steps => sequence (execute sink steps) [.evaluate increment increment.line])
        (fun steps => (evaluate sink steps increment >>= fun _ => Pure.pure ()) >>=
          fun _ => Pure.pure .normal) := by
      have same (steps : Nat) :
          sequence (execute sink (steps + 1)) [.evaluate increment increment.line] =
            evaluate sink steps increment >>= fun _ => Pure.pure .normal := by
        simp [sequence, execute, executeOver]
      simp only [bind_assoc, pure_bind]
      exact .ofStep rfl (.ofEq same ((Equivalent.ofEvaluate sink increment).bind fun _ => .pure))
    have inside : Equivalent .padded 0 1
        (fun steps => sequence (execute sink steps)
          [parts.body, .evaluate increment increment.line])
        (fun steps => thenStep (execute sink steps parts.body)
          (evaluate sink steps increment >>= fun _ => Pure.pure ())) := by
      refine ((Equivalent.ofExecute sink parts.body fun _ => quiet).later (Nat.zero_le 1)).bind ?_
      intro signal
      cases signal with
      | normal => exact behind
      | _ => exact .pure
    have block (steps : Nat) :
        execute sink (steps + 1) (.block [parts.body, .evaluate increment increment.line] line) =
          inScope (sequence (execute sink steps)
            [parts.body, .evaluate increment increment.line]) := by
      rw [execute]
      rfl
    exact .ofStep rfl (.ofEq block inside.dropScope)

/-- The loop in the tree goes round like the loop of the rule, from the same machine. -/
theorem equivalent_loop (quiet : parts.body.Quiet) (line conditionLine : Nat) :
    Equivalent .identity depth 3
      (fun steps => execute sink steps (parts.loopTree line conditionLine))
      (fun steps => roundsWhile (parts.test sink steps) (execute sink steps parts.body)
        (parts.step sink steps) steps) := by
  simp only [roundsWhile_eq_repeatWhile]
  have loop (steps : Nat) : execute sink (steps + 1) (parts.loopTree line conditionLine) =
      repeatWhile
        (do return (← valueOf (evaluate sink steps) (parts.conditionTree conditionLine)).isTruthy)
        (execute sink steps (parts.bodyTree line))
        (takeStep (execute sink steps) (increment? parts.increment.isSome (parts.bodyTree line)))
        steps := by
    rw [execute]
    rfl
  refine .ofStep rfl (.ofEq loop (.repeatWhile ?_ (parts.equivalent_body sink quiet line) ?_))
  · exact (parts.equivalent_test sink conditionLine).later (by decide)
  · exact (parts.equivalent_step sink line).later (by decide)

/-- The rounds of a loop do not notice the empty scope of a loop without initializer. -/
theorem equivalent_rounds (quiet : parts.body.Quiet) :
    Equivalent .padded 0 0
      (fun steps => roundsWhile (parts.test sink steps) (execute sink steps parts.body)
        (parts.step sink steps) steps)
      (fun steps => roundsWhile (parts.test sink steps) (execute sink steps parts.body)
        (parts.step sink steps) steps) := by
  simp only [roundsWhile_eq_repeatWhile]
  refine .repeatWhile (parts.equivalent_test_self sink) ?_ (parts.equivalent_step_self sink)
  refine (Equivalent.ofExecute sink parts.body fun _ => quiet).bind ?_
  intro signal
  cases signal with
  | normal => exact (parts.equivalent_step_self sink).bind fun _ => .pure
  | _ => exact .pure

end ForParts

/-- Expression statements and variable declarations, which cannot end but normally. -/
def EndsNormally (statement : Stmt) : Prop :=
  (∃ expression line, statement = .evaluate expression line) ∨
    ∃ name type value line, statement = .declare name type value line

private theorem execute_bind_of_endsNormally {sink : Sink} {statement : Stmt} {α : Type}
    (normally : EndsNormally statement) (next : Signal → Exec α) (steps : Nat) :
    (execute sink steps statement >>= next) =
      execute sink steps statement >>= fun _ => next .normal := by
  cases steps with
  | zero => rfl
  | succ steps =>
    rcases normally with ⟨expression, line, rfl⟩ | ⟨name, type, value, line, rfl⟩
    · simp [execute, executeOver]
    · simp [execute, executeOver]

namespace ForParts

variable (sink : Sink) (parts : ForParts)

/-- The tree of a loop: its initializer stands in front of the loop in a block. -/
def tree (line conditionLine : Nat) : Stmt :=
  match parts.initializer with
  | some first => .block [first, parts.loopTree line conditionLine] line
  | none => parts.loopTree line conditionLine

/-- The tree of a loop is executed like the loop. -/
theorem equivalent_tree (quiet : parts.body.Quiet)
    (normally : ∀ first ∈ parts.initializer, EndsNormally first) (line conditionLine : Nat) :
    Equivalent .identity 1 4 (fun steps => execute sink steps (parts.tree line conditionLine))
      (parts.run sink) := by
  unfold tree run start
  cases initial : parts.initializer with
  | none =>
    simp only [pure_bind]
    exact ((parts.equivalent_loop sink quiet line conditionLine).trans
      (parts.equivalent_rounds sink quiet).dropScope.flip).later (by decide)
  | some first =>
    have block (steps : Nat) :
        execute sink (steps + 1) (.block [first, parts.loopTree line conditionLine] line) =
          inScope (do
            let _ ← execute sink steps first
            execute sink steps (parts.loopTree line conditionLine)) := by
      rw [execute, executeOver, sequence,
        execute_bind_of_endsNormally (normally first initial), sequence_singleton]
    simp only [bind_assoc, pure_bind]
    refine .ofStep rfl (.ofEq block (.inScope ?_))
    refine .bind ((Equivalent.ofExecute sink first (by simp)).later (Nat.zero_le 3)) ?_
    intro _
    exact parts.equivalent_loop sink quiet line conditionLine

end ForParts

end Scriptlet.Run

namespace Scriptlet

/-- What the grammar lets stand in a branch or a loop defines nothing where it stands. -/
theorem Stmt.Shaped.quiet {statement : Stmt} {inLoop : Bool} (shaped : statement.Shaped inLoop)
    (noDeclaration : statement.isDeclaration = false) : statement.Quiet := by
  induction shaped with
  | block => exact .block
  | evaluate => exact .evaluate
  | declare => cases noDeclaration
  | returns => exact .returns
  | branch _ first _ second _ ih others =>
    exact .branch (ih first) fun other present => others other present (second other present)
  | @loop _ _ body stepped _ _ inner _ step ih =>
    refine .loop (ih inner) ?_
    intro increment present
    cases stepped with
    | false => cases present
    | true =>
      obtain ⟨first, last, _, _, _, rfl⟩ := step rfl
      cases present
      exact .evaluate
  | leave => exact .leave
  | proceed => exact .proceed
  | function => exact .function

namespace Surface

/-- The parts of a `for` loop whose symbols stand on the given lines. -/
def forParts (initializer : Initializer) (condition increment : Option Expr) (body : Stmt)
    (lines : List Nat) : Run.ForParts :=
  let test := (lines.drop 2).drop initializer.spelling.length
  let step := (test.drop (optionalSpelling condition).length).drop 1
  { initializer := initializer.desugar (lines.drop 2)
    condition := condition.map fun expression => expression.desugar test
    increment := increment.map fun expression => expression.desugar step
    body := body.desugar (lines.drop (clausesSpelling initializer condition increment).length) }

private theorem forTree_eq_tree (parts : Run.ForParts) (line conditionLine : Nat) :
    forTree parts.initializer (parts.conditionTree conditionLine) parts.increment parts.body line =
      parts.tree line conditionLine := by
  obtain ⟨initializer, condition, increment, body⟩ := parts
  cases initializer <;> cases increment <;> rfl

private theorem desugar_forLoop (initializer : Initializer) (condition increment : Option Expr)
    (body : Stmt) (lines : List Nat) :
    ∃ conditionLine, (Stmt.forLoop initializer condition increment body).desugar lines =
      (forParts initializer condition increment body lines).tree (lines.headD 0) conditionLine := by
  refine ⟨((lines.drop 2).drop initializer.spelling.length).headD 0, ?_⟩
  rw [← forTree_eq_tree]
  cases condition <;> rfl

private theorem Initializer.endsNormally (initializer : Initializer) (lines : List Nat) :
    ∀ first ∈ initializer.desugar lines, Run.EndsNormally first := by
  cases initializer with
  | absent => simp [Initializer.desugar]
  | declaration name type value =>
    rintro _ ⟨⟩
    exact .inr ⟨_, _, _, _, rfl⟩
  | expression value =>
    rintro _ ⟨⟩
    exact .inl ⟨_, _, rfl⟩

end Surface

namespace Run

open Scriptlet.Grammar

/-- Whatever `for` statement is read, its tree has the outcomes that the rule of `for` loops
gives to its parts, in every machine and for every sink, and goes on for ever when it does. -/
theorem execute_for_iff (depth : Nat) (inLoop : Bool) (stream rest : Stream) (tree : Stmt)
    (proper : stream.WellFormed) (keyword : stream.current.kind = .forWord)
    (accepted : statementUpTo depth inLoop stream = .ok (tree, rest)) :
    ∃ initializer condition increment body,
      (Surface.Stmt.forLoop initializer condition increment body).WellFormed inLoop ∧
      stream.Reads (Surface.Stmt.forLoop initializer condition increment body).spelling rest ∧
      tree = (Surface.Stmt.forLoop initializer condition increment body).desugar stream.lines ∧
      ∀ sink machine outcome,
        Ends (fun steps => execute sink steps tree) machine outcome ↔
          Ends ((Surface.forParts initializer condition increment body stream.lines).run sink)
            machine outcome := by
  obtain ⟨written, wellFormed, _, spelled, _, rfl⟩ := (upTo_reads depth).2 _ _ _ _ proper accepted
  obtain ⟨initializer, condition, increment, body, rfl⟩ : ∃ initializer condition increment body,
      written = .forLoop initializer condition increment body := by
    obtain ⟨symbol, symbols, same, _⟩ := wellFormed.head
    rw [same] at spelled
    exact wellFormed.eq_forLoop same (keyword ▸ (current_of_reads spelled).symm)
  refine ⟨initializer, condition, increment, body, wellFormed, spelled, rfl, ?_⟩
  intro sink machine outcome
  obtain ⟨conditionLine, same⟩ :=
    Surface.desugar_forLoop initializer condition increment body stream.lines
  rw [same]
  refine (ForParts.equivalent_tree sink _ ?_ (initializer.endsNormally _) _ _).ends
  cases wellFormed with
  | forLoop _ _ _ noDeclaration nested =>
    exact (nested.shaped _).quiet (by rw [Surface.isDeclaration_desugar, noDeclaration])

/-- The tokens of `for (; a; b) continue;` in front of the end of a source. -/
def steppedStream : Stream := ⟨steppedTokens, (Symbol.mark .endOfFile).token⟩

theorem execute_for_steppedStream :
    ∃ initializer condition increment body,
      (Surface.Stmt.forLoop initializer condition increment body).WellFormed false ∧
      steppedStream.Reads (Surface.Stmt.forLoop initializer condition increment body).spelling
        ⟨[], steppedStream.last⟩ ∧
      Stmt.loop (.identifier "a" 0) (.block [.proceed 0, .evaluate (.identifier "b" 0) 0] 0) true
          0 =
        (Surface.Stmt.forLoop initializer condition increment body).desugar steppedStream.lines ∧
      ∀ sink machine outcome,
        Ends (fun steps => execute sink steps (Stmt.loop (.identifier "a" 0)
          (.block [.proceed 0, .evaluate (.identifier "b" 0) 0] 0) true 0)) machine outcome ↔
          Ends ((Surface.forParts initializer condition increment body
            steppedStream.lines).run sink) machine outcome :=
  execute_for_iff 2 false steppedStream ⟨[], steppedStream.last⟩ _
    ⟨by decide, by decide, rfl⟩ rfl rfl

end Run

end Scriptlet
