import Mathlib.Data.List.Forall2
import Scriptlet.Program.Basic

/-! Induction over trees, in which what holds of the parts of a node is given for each of its
parts, also for those in lists. -/
namespace Scriptlet

/-- Lists that a change makes equal are related item by item if the items that it makes equal
are. -/
theorem forall₂_of_map_eq {α β : Type} {change : α → β} {related : α → α → Prop}
    {items others : List α} (same : items.map change = others.map change)
    (each : ∀ item ∈ items, ∀ other ∈ others, change item = change other → related item other) :
    List.Forall₂ related items others := by
  induction items generalizing others with
  | nil =>
    obtain rfl := List.map_eq_nil_iff.mp same.symm
    exact .nil
  | cons item items ih =>
    obtain ⟨other, others, rfl, first, rest⟩ := List.map_eq_cons_iff.mp same.symm
    refine .cons (each item List.mem_cons_self other List.mem_cons_self first.symm) ?_
    apply ih rest.symm
    intro item member other present
    exact each item (List.mem_cons_of_mem _ member) other (List.mem_cons_of_mem _ present)

/-- A relation between lists that follows from another one for the items of the left list. -/
theorem forall₂_imp_mem {α β : Type} {related implied : α → β → Prop} {items : List α}
    {others : List β} (each : List.Forall₂ related items others)
    (imp : ∀ item ∈ items, ∀ other, related item other → implied item other) :
    List.Forall₂ implied items others := by
  induction each with
  | nil => exact .nil
  | cons first _ ih =>
    obtain ⟨head, tail⟩ := List.forall_mem_cons.mp imp
    exact .cons (head _ first) (ih tail)

/-- The same for parts that may be missing. -/
theorem optionRel_imp_mem {α β : Type} {related implied : α → β → Prop} {one : Option α}
    {other : Option β} (both : Option.Rel related one other)
    (imp : ∀ item ∈ one, ∀ twin, related item twin → implied item twin) :
    Option.Rel implied one other := by
  cases both with
  | none => exact .none
  | some present => exact .some (imp _ rfl _ present)

theorem optionRel_refl {α : Type} {related : α → α → Prop} {one : Option α}
    (each : ∀ item ∈ one, related item item) : Option.Rel related one one := by
  cases one with
  | none => exact .none
  | some item => exact .some (each item rfl)

theorem optionRel_flip {α β : Type} {related : α → β → Prop} {one : Option α} {other : Option β}
    (both : Option.Rel related one other) : Option.Rel (flip related) other one := by
  cases both with
  | none => exact .none
  | some present => exact .some present

@[elab_as_elim]
theorem Expr.induction {motive : Expr → Prop}
    (literal : ∀ value line, motive (.literal value line))
    (identifier : ∀ name line, motive (.identifier name line))
    (unary : ∀ operator operand line, motive operand → motive (.unary operator operand line))
    (binary : ∀ left operator right line, motive left → motive right →
      motive (.binary left operator right line))
    (member : ∀ object name line, motive object → motive (.member object name line))
    (call : ∀ callee arguments line, motive callee → (∀ argument ∈ arguments, motive argument) →
      motive (.call callee arguments line))
    (parenthesized : ∀ inner line, motive inner → motive (.parenthesized inner line))
    (assign : ∀ name value line, motive value → motive (.assign name value line))
    (expression : Expr) : motive expression := by
  refine @Expr.rec motive (fun expressions => ∀ each ∈ expressions, motive each)
    literal identifier unary binary member call parenthesized assign ?_ ?_ expression
  · intro each member
    cases member
  · intro first rest holds others
    exact List.forall_mem_cons.mpr ⟨holds, others⟩

@[elab_as_elim]
theorem Stmt.induction {motive : Stmt → Prop}
    (block : ∀ statements line, (∀ statement ∈ statements, motive statement) →
      motive (.block statements line))
    (evaluate : ∀ expression line, motive (.evaluate expression line))
    (declare : ∀ name type initializer line, motive (.declare name type initializer line))
    (returns : ∀ value line, motive (.returns value line))
    (branch : ∀ condition whenTrue whenFalse line, motive whenTrue →
      (∀ other ∈ whenFalse, motive other) → motive (.branch condition whenTrue whenFalse line))
    (loop : ∀ condition body stepped line, motive body → motive (.loop condition body stepped line))
    (leave : ∀ line, motive (.leave line))
    (proceed : ∀ line, motive (.proceed line))
    (function : ∀ name parameters result body bodyLine line,
      (∀ statement ∈ body, motive statement) →
        motive (.function name parameters result body bodyLine line))
    (statement : Stmt) : motive statement := by
  refine @Stmt.rec motive (fun statements => ∀ each ∈ statements, motive each)
    (fun optional => ∀ other ∈ optional, motive other)
    block evaluate declare returns branch loop leave proceed function ?_ ?_ ?_ ?_ statement
  · intro each member
    cases member
  · intro first rest holds others
    exact List.forall_mem_cons.mpr ⟨holds, others⟩
  · intro other member
    cases member
  · intro present holds other member
    cases member
    exact holds

end Scriptlet
