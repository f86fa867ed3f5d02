import Scriptlet.Program.Json
import Scriptlet.Proofs.Json.Reader
import Scriptlet.Proofs.Program.Induction
import Scriptlet.Proofs.Program.Literals

/-! Programs from JSON. A node is recognised by the names of its fields and by its form, and its
parts are read in the order in which they are written. The text of a program is read back as that
program. -/
namespace Scriptlet

namespace Json

def asString? : Json → Option String
  | .string text => some text
  | _ => none

def asBool? : Json → Option Bool
  | .bool truth => some truth
  | _ => none

def asLine? : Json → Option Nat
  | .int number => if 0 ≤ number then some number.toNat else none
  | _ => none

def isNull : Json → Bool
  | .null => true
  | _ => false

/-- A part that may be missing. -/
def asOption? {α : Type} (part : Json → Option α) (json : Json) : Option (Option α) :=
  if json.isNull then some none else (part json).map some

end Json

def UnaryOperator.ofName? (name : String) : Option UnaryOperator :=
  [UnaryOperator.negate, .invert].find? (·.name = name)

def BinaryOperator.ofName? (name : String) : Option BinaryOperator :=
  [BinaryOperator.add, .subtract, .multiply, .divide, .modulo, .equal, .notEqual, .less, .lessEqual,
    .greater, .greaterEqual, .conjunction, .disjunction].find? (·.name = name)

def Value.ofJson? : Json → Option Value
  | .object [(form, content)] =>
    match form, content with
    | "Int", .int number =>
      let word := Int64.ofInt number
      if word.toInt = number then some (.int word) else none
    | "Double", .double number => some (.double number)
    | "Str", .string text => some (.string text)
    | "Bool", .bool truth => some (.bool truth)
    | _, _ => none
  | _ => none

def DeclaredType.ofJson? : Json → Option DeclaredType
  | .object [(tag, .string kind), (key, content)] =>
    match [tag, kind, key] with
    | ["kind", "Value", "name"] => do return ⟨← content.asString?, 0⟩
    | ["kind", "Pointer", "inner"] => do
      let inner ← DeclaredType.ofJson? content
      return { inner with stars := inner.stars + 1 }
    | _ => none
  | _ => none

def Parameter.ofJson? : Json → Option Parameter
  | .object [("name", name), ("declared_type", type)] => do
    return ⟨← name.asString?, ← DeclaredType.ofJson? type⟩
  | _ => none

mutual

def Expr.ofJson? : Json → Option Expr
  | .object [(tag, .string form), (key, part), (last, line)] => do
    let line ← line.asLine?
    match [tag, form, key, last] with
    | ["type", "Literal", "value", "line"] => return .literal (← Value.ofJson? part) line
    | ["type", "Identifier", "name", "line"] => return .identifier (← part.asString?) line
    | ["type", "Parenthesized", "expression", "line"] =>
      return .parenthesized (← Expr.ofJson? part) line
    | _ => none
  | .object [(tag, .string form), (key, part), (other, second), (last, line)] => do
    let line ← line.asLine?
    match [tag, form, key, other, last] with
    | ["type", "Unary", "operator", "operand", "line"] =>
      return .unary (← UnaryOperator.ofName? (← part.asString?)) (← Expr.ofJson? second) line
    | ["type", "MemberAccess", "object", "name", "line"] =>
      return .member (← Expr.ofJson? part) (← second.asString?) line
    | ["type", "Call", "callee", "arguments", "line"] =>
      return .call (← Expr.ofJson? part) (← Expr.listOfJson? second) line
    | ["type", "Assign", "name", "value", "line"] =>
      return .assign (← part.asString?) (← Expr.ofJson? second) line
    | _ => none
  | .object [(tag, .string form), (key, part), (other, second), (next, third), (last, line)] => do
    let line ← line.asLine?
    match [tag, form, key, other, next, last] with
    | ["type", "Binary", "left", "operator", "right", "line"] =>
      return .binary (← Expr.ofJson? part) (← BinaryOperator.ofName? (← second.asString?))
        (← Expr.ofJson? third) line
    | _ => none
  | _ => none

def Expr.listOfJson? : Json → Option (List Expr)
  | .array items => Expr.ofJsons? items
  | _ => none

def Expr.ofJsons? : List Json → Option (List Expr)
  | [] => some []
  | first :: rest => do return (← Expr.ofJson? first) :: (← Expr.ofJsons? rest)

end

mutual

def Stmt.ofJson? : Json → Option Stmt
  | .object [(tag, .string form), (last, line)] => do
    let line ← line.asLine?
    match [tag, form, last] with
    | ["type", "Break", "line"] => return .leave line
    | ["type", "Continue", "line"] => return .proceed line
    | _ => none
  | .object [(tag, .string form), (key, part), (last, line)] => do
    let line ← line.asLine?
    match [tag, form, key, last] with
    | ["type", "Block", "statements", "line"] => return .block (← Stmt.listOfJson? part) line
    | ["type", "Expression", "expression", "line"] => return .evaluate (← Expr.ofJson? part) line
    | ["type", "Return", "value", "line"] => return .returns (← part.asOption? Expr.ofJson?) line
    | _ => none
  | .object [(tag, .string form), (key, part), (other, second), (next, third), (last, line)] => do
    let line ← line.asLine?
    match [tag, form, key, other, next, last] with
    | ["type", "VarDecl", "name", "declared_type", "initializer", "line"] =>
      return .declare (← part.asString?) (← DeclaredType.ofJson? second)
        (← third.asOption? Expr.ofJson?) line
    | ["type", "If", "condition", "then_branch", "else_branch", "line"] =>
      let whenFalse ← if third.isNull then some none else (Stmt.ofJson? third).map some
      return .branch (← Expr.ofJson? part) (← Stmt.ofJson? second) whenFalse line
    | ["type", "While", "condition", "body", "is_for_loop", "line"] =>
      return .loop (← Expr.ofJson? part) (← Stmt.ofJson? second) (← third.asBool?) line
    | _ => none
  | .object [(tag, .string form), (first, name), (second, .array parameters), (third, result),
      (fourth, .object [(within, body), (place, bodyLine)]), (last, line)] => do
    let line ← line.asLine?
    match [tag, form, first, second, third, fourth, within, place, last] with
    | ["type", "FuncDecl", "name", "params", "return_type", "body", "statements", "line", "line"] =>
      return .function (← name.asString?) (← parameters.mapM Parameter.ofJson?)
        (← DeclaredType.ofJson? result) (← Stmt.listOfJson? body) (← bodyLine.asLine?) line
    | _ => none
  | _ => none

def Stmt.listOfJson? : Json → Option (List Stmt)
  | .array items => Stmt.ofJsons? items
  | _ => none

def Stmt.ofJsons? : List Json → Option (List Stmt)
  | [] => some []
  | first :: rest => do return (← Stmt.ofJson? first) :: (← Stmt.ofJsons? rest)

end

def Program.ofJson? : Json → Option Program
  | .object [("declarations", declarations)] => do
    return ⟨← Stmt.listOfJson? declarations⟩
  | _ => none

@[simp] theorem Json.asLine?_int (line : Nat) : asLine? (.int line) = some line := by
  simp [asLine?]

@[simp] theorem Json.asString?_string (text : String) : asString? (.string text) = some text := rfl

@[simp] theorem Json.asBool?_bool (truth : Bool) : asBool? (.bool truth) = some truth := rfl

@[simp] theorem UnaryOperator.ofName?_name (operator : UnaryOperator) :
    ofName? operator.name = some operator := by
  cases operator <;> rfl

@[simp] theorem BinaryOperator.ofName?_name (operator : BinaryOperator) :
    ofName? operator.name = some operator := by
  cases operator <;> rfl

@[simp] theorem Value.ofJson?_toJson (value : Value) : ofJson? value.toJson = some value := by
  cases value with
  | int number => simp [toJson, ofJson?]
  | _ => rfl

@[simp] theorem DeclaredType.ofJson?_toJson (type : DeclaredType) :
    ofJson? type.toJson = some type := by
  obtain ⟨name, stars⟩ := type
  rw [toJson]
  induction stars with
  | zero => rfl
  | succ stars ih =>
    rw [Nat.repeat]
    simp [ofJson?, ih]

@[simp] theorem Parameter.ofJson?_toJson (parameter : Parameter) :
    ofJson? parameter.toJson = some parameter := by
  simp [toJson, ofJson?]

/-- Items are read back one by one. -/
theorem mapM_map_eq_some {α β : Type} {write : α → β} {read : β → Option α} {items : List α}
    (each : ∀ item ∈ items, read (write item) = some item) :
    (items.map write).mapM read = some items := by
  induction items with
  | nil => rfl
  | cons first rest ih =>
    obtain ⟨head, tail⟩ := List.forall_mem_cons.mp each
    simp [head, ih tail]

private theorem Expr.toJsons_eq_map (expressions : List Expr) :
    toJsons expressions = expressions.map toJson := by
  induction expressions with
  | nil => rfl
  | cons first rest ih => simp [toJsons, ih]

private theorem Expr.ofJsons?_eq_mapM (items : List Json) :
    ofJsons? items = items.mapM ofJson? := by
  induction items with
  | nil => rfl
  | cons first rest ih => simp [ofJsons?, ih]

private theorem Stmt.toJsons_eq_map (statements : List Stmt) :
    toJsons statements = statements.map toJson := by
  induction statements with
  | nil => rfl
  | cons first rest ih => simp [toJsons, ih]

private theorem Stmt.ofJsons?_eq_mapM (items : List Json) :
    ofJsons? items = items.mapM ofJson? := by
  induction items with
  | nil => rfl
  | cons first rest ih => simp [ofJsons?, ih]

/-- An expression is read back from its JSON. -/
@[simp] theorem Expr.ofJson?_toJson (expression : Expr) :
    ofJson? expression.toJson = some expression := by
  induction expression using Expr.induction with
  | literal value line => simp [toJson, Json.line, ofJson?]
  | identifier name line => simp [toJson, Json.line, ofJson?]
  | unary operator operand line ih => simp [toJson, Json.line, ofJson?, ih]
  | binary left operator right line ih other => simp [toJson, Json.line, ofJson?, ih, other]
  | member object name line ih => simp [toJson, Json.line, ofJson?, ih]
  | call callee arguments line ih each =>
    have read : listOfJson? (.array (toJsons arguments)) = some arguments := by
      rw [listOfJson?, ofJsons?_eq_mapM, toJsons_eq_map, mapM_map_eq_some each]
    simp [toJson, Json.line, ofJson?, ih, read]
  | parenthesized inner line ih => simp [toJson, Json.line, ofJson?, ih]
  | assign name value line ih => simp [toJson, Json.line, ofJson?, ih]

private theorem Json.asOption?_ofOption (value : Option Expr) :
    asOption? Expr.ofJson? (ofOption (value.map Expr.toJson)) = some value := by
  cases value with
  | none => rfl
  | some expression =>
    have present : expression.toJson.isNull = false := by cases expression <;> rfl
    simp [asOption?, ofOption, present]

private theorem Stmt.listOfJson?_toJsons {statements : List Stmt}
    (each : ∀ statement ∈ statements, ofJson? statement.toJson = some statement) :
    listOfJson? (.array (toJsons statements)) = some statements := by
  rw [listOfJson?, ofJsons?_eq_mapM, toJsons_eq_map, mapM_map_eq_some each]

@[simp] theorem Stmt.ofJson?_toJson (statement : Stmt) :
    ofJson? statement.toJson = some statement := by
  induction statement using Stmt.induction with
  | block statements line ih =>
    simp [toJson, Json.line, ofJson?, listOfJson?_toJsons ih]
  | evaluate expression line => simp [toJson, Json.line, ofJson?]
  | declare name type initializer line => simp [toJson, Json.line, ofJson?, Json.asOption?_ofOption]
  | returns value line => simp [toJson, Json.line, ofJson?, Json.asOption?_ofOption]
  | branch condition whenTrue whenFalse line ih others =>
    cases whenFalse with
    | none => simp [toJson, Json.line, ofJson?, Json.isNull, ih]
    | some whenFalse =>
      have present : whenFalse.toJson.isNull = false := by
        cases whenFalse with
        | branch condition first second line => cases second <;> rfl
        | _ => rfl
      simp [toJson, Json.line, ofJson?, ih, present, others]
  | loop condition body stepped line ih => simp [toJson, Json.line, ofJson?, ih]
  | leave line => simp [toJson, Json.line, ofJson?]
  | proceed line => simp [toJson, Json.line, ofJson?]
  | function name parameters result body bodyLine line ih =>
    have read := mapM_map_eq_some fun parameter (_ : parameter ∈ parameters) =>
      parameter.ofJson?_toJson
    simp [toJson, Json.line, ofJson?, listOfJson?_toJsons ih, read]

private theorem Program.ofJson?_toJson (program : Program) :
    ofJson? program.toJson = some program := by
  have read : Stmt.listOfJson? (.array (Stmt.toJsons program.declarations)) =
      some program.declarations :=
    Stmt.listOfJson?_toJsons fun statement _ => statement.ofJson?_toJson
  simp [toJson, ofJson?, read]

/-- Whether a literal has a text. -/
def Literal.isFinite : Literal → Bool
  | .value (.double number) => Number.isFinite number
  | _ => true

attribute [simp] Json.Writable.null Json.Writable.bool Json.Writable.int Json.Writable.string

private theorem Value.writable {value : Value} (finite : (Literal.value value).isFinite) :
    value.toJson.Writable := by
  cases value with
  | double number => exact .object (by simpa using Json.Writable.double finite) (by simp)
  | _ => exact .object (by simp) (by simp)

@[simp] theorem DeclaredType.writable (type : DeclaredType) : type.toJson.Writable := by
  obtain ⟨name, stars⟩ := type
  rw [toJson]
  induction stars with
  | zero => exact .object (by simp) (by simp)
  | succ stars ih => exact .object (by simpa [Nat.repeat] using ih) (by simp)

@[simp] theorem Parameter.writable (parameter : Parameter) : parameter.toJson.Writable :=
  .object (by simp) (by simp)

/-- An array can be written if each item of it can. -/
theorem writable_map {α : Type} {write : α → Json} {literals : α → List Literal} {items : List α}
    (each : ∀ item ∈ items, (∀ literal ∈ literals item, literal.isFinite) → (write item).Writable)
    (finite : ∀ literal ∈ items.flatMap literals, literal.isFinite) :
    (Json.array (items.map write)).Writable := by
  refine .array fun value member => ?_
  obtain ⟨item, present, rfl⟩ := List.mem_map.mp member
  apply each item present
  intro literal inside
  exact finite literal (List.mem_flatMap.mpr ⟨item, present, inside⟩)

private theorem Expr.allLiterals_eq_flatMap (expressions : List Expr) :
    allLiterals expressions = expressions.flatMap literals := by
  induction expressions with
  | nil => rfl
  | cons first rest ih => simp [allLiterals, ih]

private theorem Stmt.allLiterals_eq_flatMap (statements : List Stmt) :
    allLiterals statements = statements.flatMap literals := by
  induction statements with
  | nil => rfl
  | cons first rest ih => simp [allLiterals, ih]

private theorem Expr.writable (expression : Expr) :
    (∀ literal ∈ expression.literals, literal.isFinite) → expression.toJson.Writable := by
  induction expression using Expr.induction with
  | literal value line =>
    intro finite
    have content := Value.writable (finite _ List.mem_cons_self)
    exact .object (by simp [Json.line, content]) (by simp [Json.line])
  | identifier name line =>
    intro finite
    exact .object (by simp [Json.line]) (by simp [Json.line])
  | unary operator operand line ih =>
    intro finite
    exact .object (by simp [Json.line, ih finite]) (by simp [Json.line])
  | binary left operator right line ih other =>
    intro finite
    rw [literals, List.forall_mem_append] at finite
    exact .object (by simp [Json.line, ih finite.1, other finite.2]) (by simp [Json.line])
  | member object name line ih =>
    intro finite
    rw [literals, List.forall_mem_append] at finite
    exact .object (by simp [Json.line, ih finite.1]) (by simp [Json.line])
  | call callee arguments line ih each =>
    intro finite
    rw [literals, allLiterals_eq_flatMap, List.forall_mem_append] at finite
    have items := writable_map each finite.2
    rw [← toJsons_eq_map] at items
    exact .object (by simp [Json.line, ih finite.1, items]) (by simp [Json.line])
  | parenthesized inner line ih =>
    intro finite
    exact .object (by simp [Json.line, ih finite]) (by simp [Json.line])
  | assign name value line ih =>
    intro finite
    rw [literals, List.forall_mem_cons] at finite
    exact .object (by simp [Json.line, ih finite.2]) (by simp [Json.line])

private theorem Json.writable_ofOption {value : Option Expr}
    (finite : ∀ literal ∈ optionalLiterals value, literal.isFinite) :
    (ofOption (value.map Expr.toJson)).Writable := by
  cases value with
  | none => exact .null
  | some expression => exact expression.writable finite

private theorem Stmt.writable_toJsons {statements : List Stmt}
    (each : ∀ statement ∈ statements, (∀ literal ∈ statement.literals, literal.isFinite) →
      statement.toJson.Writable)
    (finite : ∀ literal ∈ allLiterals statements, literal.isFinite) :
    (Json.array (toJsons statements)).Writable := by
  rw [toJsons_eq_map]
  rw [allLiterals_eq_flatMap] at finite
  exact writable_map each finite

private theorem Stmt.writable (statement : Stmt) :
    (∀ literal ∈ statement.literals, literal.isFinite) → statement.toJson.Writable := by
  induction statement using Stmt.induction with
  | block statements line ih =>
    intro finite
    exact .object (by simp [Json.line, writable_toJsons ih finite]) (by simp [Json.line])
  | evaluate expression line =>
    intro finite
    exact .object (by simp [Json.line, expression.writable finite]) (by simp [Json.line])
  | declare name type initializer line =>
    intro finite
    simp only [literals, List.forall_mem_cons] at finite
    have value := Json.writable_ofOption finite.2.2
    exact .object (by simp [Json.line, value]) (by simp [Json.line])
  | returns value line =>
    intro finite
    exact .object (by simp [Json.line, Json.writable_ofOption finite]) (by simp [Json.line])
  | branch condition whenTrue whenFalse line ih others =>
    intro finite
    cases whenFalse with
    | none =>
      simp only [literals, List.forall_mem_append] at finite
      have test := condition.writable finite.1
      exact .object (by simp [Json.line, test, ih finite.2]) (by simp [Json.line])
    | some whenFalse =>
      simp only [literals, List.forall_mem_append] at finite
      have test := condition.writable finite.1.1
      have second := others _ rfl finite.2
      exact .object (by simp [Json.line, test, ih finite.1.2, second]) (by simp [Json.line])
  | loop condition body stepped line ih =>
    intro finite
    rw [literals, List.forall_mem_append] at finite
    have test := condition.writable finite.1
    exact .object (by simp [Json.line, test, ih finite.2]) (by simp [Json.line])
  | leave line =>
    intro finite
    exact .object (by simp [Json.line]) (by simp [Json.line])
  | proceed line =>
    intro finite
    exact .object (by simp [Json.line]) (by simp [Json.line])
  | function name parameters result body bodyLine line ih =>
    intro finite
    simp only [literals, List.forall_mem_cons, List.forall_mem_append] at finite
    have statements := writable_toJsons ih finite.2.2.2
    have inputs : (Json.array (parameters.map Parameter.toJson)).Writable := .array (by simp)
    have block :
        (Json.object [("statements", .array (toJsons body)), Json.line bodyLine]).Writable :=
      .object (by simp [Json.line, statements]) (by simp [Json.line])
    rw [toJson]
    exact .object (by simpa [Json.line, inputs] using block) (by simp [Json.line])

private theorem Program.writable {program : Program}
    (finite : ∀ literal ∈ program.literals, literal.isFinite) : program.toJson.Writable := by
  have statements := Stmt.writable_toJsons (fun statement _ => statement.writable) finite
  exact .object (by simp [statements]) (by simp)

/-- The program that a text stands for. -/
def Program.ofText? (text : String) : Option Program :=
  (Json.read? text.toList).bind Program.ofJson?

section Finite

variable {program : Program} (finite : ∀ literal ∈ program.literals, literal.isFinite)

include finite in
private theorem Program.text_json : Json.Text program.toJson program.json.toList :=
  Json.text_pretty (Program.writable finite) 0

include finite in
private theorem Program.read?_json : Json.read? program.json.toList = some program.toJson := by
  have element := Json.Element.of Json.blank_nil (text_json finite) Json.blank_nil
  rw [List.nil_append, List.append_nil] at element
  exact Json.read?_element element

include finite in
private theorem Program.ofText?_json : Program.ofText? program.json = some program := by
  rw [ofText?, read?_json finite, Option.bind_some, ofJson?_toJson]

end Finite

/-- The JSON text of a program with finite numbers is well-formed, and it is read back as that
program: no other value has this text, and no other program. -/
theorem Program.json_reads_back (program : Program)
    (finite : ∀ literal ∈ program.literals, literal.isFinite) :
    Json.Text program.toJson program.json.toList ∧
      (∀ value, Json.Element value program.json.toList → Program.ofJson? value = some program) ∧
      Program.ofText? program.json = some program ∧
      ∀ other : Program, (∀ literal ∈ other.literals, literal.isFinite) →
        program.json = other.json → program = other := by
  refine ⟨text_json finite, fun value element => ?_, ofText?_json finite, fun other also same => ?_⟩
  · have read := Json.read?_element element
    rw [read?_json finite] at read
    cases read
    exact ofJson?_toJson program
  · have read := ofText?_json finite
    rw [same, ofText?_json also] at read
    cases read
    rfl

/-- A declaration whose names and values need care: quotes, control characters and characters that
are not on every keyboard in a string, a tenth, and the least integer. -/
def careful : Program :=
  ⟨[.declare "say \"hi\"" ⟨"back\\slash", 2⟩
      (some (.literal (.string "\x00\t\x1f\n😀é\\u0041") 3)) 1,
    .evaluate (.binary (.literal (.double (Float.ofBits 0x3fb999999999999a)) 2) .multiply
      (.literal (.int Int64.minValue) 2) 2) 2,
    .returns none 7]⟩

/-- The text of that declaration reads back as it. -/
theorem careful_reads_back :
    (∀ literal ∈ careful.literals, literal.isFinite) ∧
      Program.ofText? careful.json = some careful := by
  have finite : ∀ literal ∈ careful.literals, literal.isFinite := by decide +kernel
  exact ⟨finite, (Program.json_reads_back careful finite).2.2.1⟩

end Scriptlet
