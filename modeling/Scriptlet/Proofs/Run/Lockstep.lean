import Scriptlet.Proofs.Run.Likeness

/-! Like programs run in step. With the same number of steps, from like machines and with
one sink, they reach like outcomes; only where the left program lacks a function, which the
right one may have, they part. -/
namespace Scriptlet.Run

variable {α β γ δ : Type}

/-- Like outcomes: like values or like interruptions, with like machines. Nothing is asked
behind a function that the left side lacks. -/
inductive Outcome.Like (likeness : Likeness) (values : α → β → Prop) :
    Outcome α → Outcome β → Prop where
  | ok {value : α} {twin : β} {machine other : Machine} (same : values value twin)
      (machines : machine.Like likeness other) :
      Like likeness values (.ok value machine) (.ok twin other)
  | interrupted {reason twin : Interruption} {machine other : Machine}
      (reasons : reason.Like likeness twin) (machines : machine.Like likeness other) :
      Like likeness values (.error reason machine) (.error twin other)
  | lacking {reason : Interruption} {machine : Machine} {outcome : Outcome β}
      (missing : likeness.missing) (lacks : reason.lacksFunction = true) :
      Like likeness values (.error reason machine) outcome

/-- Actions that reach like outcomes from like machines. -/
def InStep (likeness : Likeness) (values : α → β → Prop) (left : Exec α) (right : Exec β) : Prop :=
  ∀ machine other, machine.Like likeness other →
    Outcome.Like likeness values (left machine) (right other)

namespace InStep

variable {likeness : Likeness} {values : α → β → Prop} {results : γ → δ → Prop}
  {left : Exec α} {right : Exec β} {line other : Nat} {name twin : String}

theorem pure {value : α} {twin : β} (same : values value twin) :
    InStep likeness values (pure value) (pure twin) :=
  fun _ _ machines => .ok same machines

theorem unfinished : InStep likeness values Exec.unfinished Exec.unfinished :=
  fun _ _ machines => .interrupted .unfinished machines

theorem raise {cause twin : Cause} (causes : cause.Like likeness twin) :
    InStep likeness values (Exec.raise cause) (Exec.raise twin) :=
  fun _ _ machines => .interrupted (.failed ⟨causes, .none⟩) machines

theorem failAt {cause twin : Cause} (causes : cause.Like likeness twin)
    (lines : likeness.sameLine line other) :
    InStep likeness values (Exec.failAt line cause) (Exec.failAt other twin) :=
  fun _ _ machines => .interrupted (.failed ⟨causes, .some lines⟩) machines

theorem bind {next : α → Exec γ} {follow : β → Exec δ}
    (first : InStep likeness values left right)
    (rest : ∀ value twin, values value twin → InStep likeness results (next value) (follow twin)) :
    InStep likeness results (left >>= next) (right >>= follow) := by
  intro machine other machines
  rw [bind_apply, bind_apply]
  have alike := first machine other machines
  generalize left machine = outcome at alike
  generalize right other = counterpart at alike
  cases alike with
  | ok same machines => exact rest _ _ same _ _ machines
  | interrupted reasons machines => exact .interrupted reasons machines
  | lacking missing lacks => exact .lacking missing lacks

/-- Both sides go on with the same value. -/
theorem bindSame {right : Exec α} {next : α → Exec γ} {follow : α → Exec δ}
    (first : InStep likeness Eq left right)
    (rest : ∀ value, InStep likeness results (next value) (follow value)) :
    InStep likeness results (left >>= next) (right >>= follow) := by
  refine first.bind fun value twin same => ?_
  subst same
  exact rest value

theorem locate (lines : likeness.sameLine line other)
    (located : InStep likeness values left right) :
    InStep likeness values (Exec.locate line left) (Exec.locate other right) := by
  intro machine counter machines
  have alike := located machine counter machines
  simp only [Exec.locate, EStateM.adaptExcept]
  generalize left machine = outcome at alike
  generalize right counter = counterpart at alike
  cases alike with
  | ok same machines => exact .ok same machines
  | interrupted reasons machines => exact .interrupted (reasons.withLine lines) machines
  | lacking missing lacks =>
    exact .lacking missing (by rw [Interruption.lacksFunction_withLine, lacks])

theorem inScope (inside : InStep likeness values left right) :
    InStep likeness values (Exec.inScope left) (Exec.inScope right) := by
  intro machine other machines
  have alike := inside { machine with chain := machine.chain.push }
    { other with chain := other.chain.push } ⟨machines.chains.push, machines.consoles⟩
  simp only [Exec.inScope]
  generalize left _ = outcome at alike
  generalize right _ = counterpart at alike
  cases alike with
  | ok same machines => exact .ok same ⟨machines.chains.pop, machines.consoles⟩
  | interrupted reasons machines =>
    exact .interrupted reasons ⟨machines.chains.pop, machines.consoles⟩
  | lacking missing lacks => exact .lacking missing lacks

theorem mapM {item copy : Type} {related : item → copy → Prop} {act : item → Exec α}
    {counterpart : copy → Exec α} {items : List item} {copies : List copy}
    (each : List.Forall₂ related items copies)
    (acts : ∀ one other, related one other → InStep likeness Eq (act one) (counterpart other)) :
    InStep likeness Eq (items.mapM act) (copies.mapM counterpart) := by
  induction each with
  | nil => exact .pure rfl
  | cons first _ ih =>
    rw [List.mapM_cons, List.mapM_cons]
    refine (acts _ _ first).bindSame fun value => ?_
    exact ih.bindSame fun _ => .pure rfl

theorem optionMapM {item copy : Type} {related : item → copy → Prop} {act : item → Exec α}
    {counterpart : copy → Exec α} {one : Option item} {other : Option copy}
    (both : Option.Rel related one other)
    (acts : ∀ one other, related one other → InStep likeness Eq (act one) (counterpart other)) :
    InStep likeness Eq (one.mapM act) (other.mapM counterpart) := by
  cases both with
  | none => exact .pure rfl
  | some present =>
    exact (acts _ _ present).bindSame fun _ => .pure rfl

theorem operator (result : Except OperatorFault Value) :
    InStep likeness Eq (Exec.operator result) (Exec.operator result) := by
  cases result with
  | ok value => exact .pure rfl
  | error fault => exact .raise .operator

theorem lookup (names : likeness.sameVariable name twin) :
    InStep likeness Eq (Exec.lookup name) (Exec.lookup twin) := by
  intro machine other machines
  change Outcome.Like _ _ (Exec.scope (machine.chain.lookup name) machine)
    (Exec.scope (other.chain.lookup twin) other)
  rw [Chain.lookup, Chain.lookup, ← ScopesLike.lookup machines.chains names]
  generalize machine.chain.scopes.findSome? (·.slot? name) = slot
  rcases slot with _ | _ | value
  · exact raise (.scope (.undefinedVariable names)) _ _ machines
  · exact raise (.scope (.unassignedVariable names)) _ _ machines
  · exact .ok rfl machines

theorem lookupFunction (names : likeness.sameFunction name twin) :
    InStep likeness (Function.Like likeness) (Exec.lookupFunction name)
      (Exec.lookupFunction twin) := by
  intro machine other machines
  change Outcome.Like _ _ (Exec.scope (machine.chain.lookupFunction name) machine)
    (Exec.scope (other.chain.lookupFunction twin) other)
  rw [Chain.lookupFunction, Chain.lookupFunction]
  have found := ScopesLike.lookupFunction machines.chains names
  generalize machine.chain.scopes.findSome? _ = first at found
  generalize other.chain.scopes.findSome? _ = second at found
  cases found with
  | found functions => exact .ok functions machines
  | absent => exact raise (.scope (.undefinedFunction names)) _ _ machines
  | missing lacks => exact .lacking lacks rfl

theorem assign (names : likeness.sameVariable name twin) (value : Value) :
    InStep likeness Eq (Exec.assign name value) (Exec.assign twin value) := by
  intro machine other machines
  rw [Correspondence.assign_apply, Correspondence.assign_apply]
  rcases machines.chains.assign names value with ⟨_, _, left, right, chains⟩ | ⟨left, right⟩
  · rw [left, right]
    exact .ok rfl ⟨chains, machines.consoles⟩
  · rw [left, right]
    exact .interrupted (.failed ⟨.scope (.undefinedVariable names), .none⟩) machines

theorem define (names : likeness.sameVariable name twin) (value : Option Value) :
    InStep likeness Eq (Exec.define name value) (Exec.define twin value) := by
  intro machine other machines
  rw [Correspondence.define_apply, Correspondence.define_apply]
  rcases machines.chains.define names value with ⟨_, _, left, right, chains⟩ | ⟨left, right⟩
  · rw [left, right]
    exact .ok rfl ⟨chains, machines.consoles⟩
  · rw [left, right]
    exact .interrupted (.failed ⟨.scope (.variableDefined names), .none⟩) machines

theorem emit (sink : Sink) (text : String) :
    InStep likeness Eq (Exec.emit sink text) (Exec.emit sink text) := by
  rw [Exec.emit]
  split
  · exact .pure rfl
  · rintro ⟨chain, console⟩ ⟨other, _⟩ ⟨chains, rfl⟩
    rw [Correspondence.offer_apply, Correspondence.offer_apply]
    cases sink.refusal console.offers text with
    | none => exact .ok rfl ⟨chains, rfl⟩
    | some reason => exact .interrupted (.failed ⟨.writeRefused, .none⟩) ⟨chains, rfl⟩

section

variable (likeness)

/-- Evaluations of like expressions go in step. -/
def Evaluates (evaluate counterpart : Expr → Exec (Option Value)) : Prop :=
  ∀ expression twin, expression.Like likeness twin →
    InStep likeness Eq (evaluate expression) (counterpart twin)

/-- Executions of like statements go in step. -/
def Executes (execute counterpart : Stmt → Exec Signal) : Prop :=
  ∀ statement twin, statement.Like likeness twin →
    InStep likeness Eq (execute statement) (counterpart twin)

variable {likeness}
variable {evaluate otherEvaluate : Expr → Exec (Option Value)}
  {execute otherExecute : Stmt → Exec Signal}
  (evaluates : Evaluates likeness evaluate otherEvaluate)
  (executes : Executes likeness execute otherExecute)

include evaluates in
theorem valueOf {expression twin : Expr} (alike : expression.Like likeness twin) :
    InStep likeness Eq (Run.valueOf evaluate expression) (Run.valueOf otherEvaluate twin) := by
  refine (evaluates expression twin alike).bindSame fun result => ?_
  cases result with
  | some value => exact .pure rfl
  | none =>
    -- Only a call has no value; the error names the function that was called.
    cases alike with
    | named names each lines => exact .failAt (.noValue names) lines
    | unnamed callees noName each lines =>
      cases callees with
      | identifier => cases noName
      | _ => exact .failAt .unnamedCallee lines
    | _ => exact .failAt .unnamedCallee (by assumption)

include executes in
theorem sequence {statements others : List Stmt}
    (each : List.Forall₂ (Stmt.Like likeness) statements others) :
    InStep likeness Eq (Run.sequence execute statements) (Run.sequence otherExecute others) := by
  induction each with
  | nil => exact .pure rfl
  | cons first _ ih =>
    refine (executes _ _ first).bindSame fun signal => ?_
    cases signal with
    | normal => exact ih
    | _ => exact .pure rfl

theorem bindParameters (lines : likeness.sameLine line other) {parameters others : List Parameter}
    (named : List.Forall₂ (Parameter.Like likeness) parameters others) (values : List Value) :
    InStep likeness Eq (Run.bindParameters line (parameters.zip values))
      (Run.bindParameters other (others.zip values)) := by
  induction named generalizing values with
  | nil => exact .pure rfl
  | cons first _ ih =>
    cases values with
    | nil => exact .pure rfl
    | cons value values =>
      exact ((define first (some value)).locate lines).bindSame fun _ => ih values

include executes in
theorem callFunction {function twin : Function} (functions : function.Like likeness twin)
    (values : List Value) (lines : likeness.sameLine line other) :
    InStep likeness Eq (Run.callFunction execute function values line)
      (Run.callFunction otherExecute twin values other) := by
  rw [Run.callFunction, Run.callFunction, ← functions.named.length_eq]
  split
  · exact .failAt (.arity functions.names) lines
  · have bodies := (sequence executes functions.bodies).inScope
    have inside := (bindParameters functions.lines functions.named values).bindSame
      fun _ => bodies
    refine inside.inScope.bindSame fun signal => ?_
    cases signal with
    | normal => exact .pure rfl
    | returned value => exact .pure rfl
    | left => exact .failAt (.escapedLoopControl functions.names) functions.lines
    | proceeded => exact .failAt (.escapedLoopControl functions.names) functions.lines

include evaluates in
theorem printAll (sink : Sink) {arguments others : List Expr}
    (each : List.Forall₂ (Expr.Like likeness) arguments others) :
    InStep likeness Eq (Run.printAll sink evaluate arguments)
      (Run.printAll sink otherEvaluate others) := by
  induction each with
  | nil => exact .pure rfl
  | cons first _ ih =>
    refine (evaluates _ _ first).bindSame fun result => ?_
    have printed : InStep likeness Eq (printResult sink result) (printResult sink result) := by
      cases result with
      | some value => exact emit sink value.text
      | none => exact .pure rfl
    exact printed.bindSame fun _ => ih

include evaluates executes in
/-- A call by name: of the builtin of that name, or of the function that is found under it. -/
theorem callNamed (sink : Sink) (names : likeness.sameFunction name twin) {nameLine twinLine : Nat}
    {arguments others : List Expr} (each : List.Forall₂ (Expr.Like likeness) arguments others)
    (lines : likeness.sameLine line other) :
    InStep likeness Eq (call sink evaluate execute (.identifier name nameLine) arguments line)
      (call sink otherEvaluate otherExecute (.identifier twin twinLine) others other) := by
  simp only [call, calleeName?, ← likeness.builtin names]
  cases Builtin.ofName? name with
  | some builtin =>
    cases builtin
    exact ((printAll evaluates sink each).locate lines).bindSame fun _ => .pure rfl
  | none =>
    refine ((lookupFunction names).locate lines).bind fun function copy functions => ?_
    rw [← functions.named.length_eq, ← each.length_eq]
    split
    · exact .failAt (.arity names) lines
    · refine (mapM each fun _ _ => valueOf evaluates).bindSame fun values => ?_
      exact callFunction executes functions values lines

include evaluates executes in
theorem evaluateOver (sink : Sink) {expression twin : Expr}
    (alike : expression.Like likeness twin) :
    InStep likeness Eq (Run.evaluateOver sink evaluate execute expression)
      (Run.evaluateOver sink otherEvaluate otherExecute twin) := by
  cases alike with
  | literal lines => exact .pure rfl
  | parenthesized nested lines =>
    exact (valueOf evaluates nested).bindSame fun _ => .pure rfl
  | identifier names lines =>
    exact ((lookup names).locate lines).bindSame fun _ => .pure rfl
  | unary operands lines =>
    refine (valueOf evaluates operands).bindSame fun value => ?_
    exact ((operator _).locate lines).bindSame fun _ => .pure rfl
  | binary lefts rights lines =>
    refine (valueOf evaluates lefts).bindSame fun first => ?_
    refine (valueOf evaluates rights).bindSame fun second => ?_
    exact ((operator _).locate lines).bindSame fun _ => .pure rfl
  | assign names values lines =>
    refine (valueOf evaluates values).bindSame fun result => ?_
    exact ((assign names result).locate lines).bindSame fun _ => .pure rfl
  | member objects lines => exact .failAt .memberAccess lines
  | named names each lines =>
    simp only [Run.evaluateOver]
    exact callNamed evaluates executes sink names each lines
  | unnamed callees noName each lines =>
    simp only [Run.evaluateOver, call, noName, callees.calleeName? noName]
    exact .failAt .unnamedCallee lines

include executes in
theorem takeStep {increment twin : Option Stmt}
    (steps : Option.Rel (Stmt.Like likeness) increment twin) :
    InStep likeness Eq (Run.takeStep execute increment) (Run.takeStep otherExecute twin) := by
  cases steps with
  | none => exact .pure rfl
  | some alike => exact (executes _ _ alike).bindSame fun _ => .pure rfl

theorem repeatWhile {test otherTest : Exec Bool} {body otherBody : Exec Signal}
    {step otherStep : Exec Unit} (tests : InStep likeness Eq test otherTest)
    (bodies : InStep likeness Eq body otherBody) (steps : InStep likeness Eq step otherStep)
    (count : Nat) :
    InStep likeness Eq (Run.repeatWhile test body step count)
      (Run.repeatWhile otherTest otherBody otherStep count) := by
  induction count with
  | zero => exact .unfinished
  | succ count ih =>
    refine tests.bindSame fun holds => ?_
    cases holds with
    | false => exact .pure rfl
    | true =>
      refine bodies.bindSame fun signal => ?_
      cases signal with
      | normal => exact ih
      | left => exact .pure rfl
      | proceeded => exact steps.bindSame fun _ => ih
      | returned value => exact .pure rfl

include evaluates executes in
theorem executeOver (rounds : Nat) {statement twin : Stmt} (alike : statement.Like likeness twin) :
    InStep likeness Eq (Run.executeOver evaluate execute rounds statement)
      (Run.executeOver otherEvaluate otherExecute rounds twin) := by
  cases alike with
  | block each lines => exact (sequence executes each).inScope
  | evaluate nested lines => exact (evaluates _ _ nested).bindSame fun _ => .pure rfl
  | declare names values lines =>
    refine (optionMapM values fun _ _ => valueOf evaluates).bindSame fun value => ?_
    exact ((define names value).locate lines).bindSame fun _ => .pure rfl
  | returns values lines =>
    exact (optionMapM values fun _ _ => valueOf evaluates).bindSame fun _ => .pure rfl
  | branch conditions firsts seconds lines =>
    refine (valueOf evaluates conditions).bindSame fun value => ?_
    split
    · exact executes _ _ firsts
    · cases seconds with
      | none => exact .pure rfl
      | some other => exact executes _ _ other
  | loop conditions bodies lines =>
    refine repeatWhile ?_ (executes _ _ bodies) (takeStep executes (bodies.increment? _)) rounds
    exact (valueOf evaluates conditions).bindSame fun _ => .pure rfl
  | leave lines => exact .pure rfl
  | proceed lines => exact .pure rfl
  | function names named bodies lines => exact .failAt (.nestedFunction names) lines

end

/-- Like expressions and statements go in step, in any number of steps. -/
theorem steps (sink : Sink) (steps : Nat) :
    Evaluates likeness (evaluate sink steps) (evaluate sink steps) ∧
      Executes likeness (execute sink steps) (execute sink steps) := by
  induction steps with
  | zero =>
    simp only [evaluate, execute]
    exact ⟨fun _ _ _ => .unfinished, fun _ _ _ => .unfinished⟩
  | succ steps ih =>
    simp only [evaluate, execute]
    exact ⟨fun _ _ alike => evaluateOver ih.1 ih.2 sink alike,
      fun _ _ alike => executeOver ih.1 ih.2 steps alike⟩

end InStep

end Scriptlet.Run
