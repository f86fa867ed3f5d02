import Mathlib.Data.Int.ModEq
import Mathlib.Order.Defs.Unbundled
import Mathlib.Tactic.Ring
import Scriptlet.Value.Operator

/-! Operators on integers. Sums, differences and products are exact modulo `2 ^ 64`, so that two
terms of them have the same result wherever they are congruent; quotients are cut off towards
zero; and the comparisons are those of the integers that the numbers stand for. -/
namespace Scriptlet

/-- A number represents an integer: it is the one from `-2 ^ 63` up to `2 ^ 63 - 1` that differs
from the integer by a multiple of `2 ^ 64`. -/
structure Represents (number : Int64) (exact : Int) : Prop where
  low : -2 ^ 63 ≤ number.toInt
  high : number.toInt < 2 ^ 63
  congruent : number.toInt ≡ exact [ZMOD 2 ^ 64]

namespace Represents

variable {a b : Int64} {x y : Int}

theorem of_congruent (congruent : a.toInt ≡ x [ZMOD 2 ^ 64]) : Represents a x :=
  ⟨a.le_toInt, a.toInt_lt, congruent⟩

theorem self (a : Int64) : Represents a a.toInt := of_congruent rfl

/-- What is wrapped around is congruent to what it was. -/
theorem of_bmod (wraps : a.toInt = x.bmod (2 ^ 64)) : Represents a x := by
  apply of_congruent
  rw [wraps]
  exact Int.bmod_emod

theorem trans (represents : Represents a x) (congruent : x ≡ y [ZMOD 2 ^ 64]) : Represents a y :=
  of_congruent (represents.congruent.trans congruent)

theorem add (first : Represents a x) (second : Represents b y) : Represents (a + b) (x + y) :=
  (of_bmod (Int64.toInt_add a b)).trans (first.congruent.add second.congruent)

theorem subtract (first : Represents a x) (second : Represents b y) :
    Represents (a - b) (x - y) :=
  (of_bmod (Int64.toInt_sub a b)).trans (first.congruent.sub second.congruent)

theorem multiply (first : Represents a x) (second : Represents b y) :
    Represents (a * b) (x * y) :=
  (of_bmod (Int64.toInt_mul a b)).trans (first.congruent.mul second.congruent)

theorem negate (represents : Represents a x) : Represents (-a) (-x) :=
  (of_bmod (Int64.toInt_neg a)).trans represents.congruent.neg

/-- Numbers that represent the same integer are the same. -/
theorem unique (first : Represents a x) (second : Represents b x) : a = b := by
  have congruent := first.congruent.trans second.congruent.symm
  rw [Int.ModEq] at congruent
  obtain ⟨lowFirst, highFirst, _⟩ := first
  obtain ⟨lowSecond, highSecond, _⟩ := second
  rw [← Int64.toInt_inj]
  omega

end Represents

/-- A result that is a number, and represents an integer. -/
def IsExact (result : Except OperatorFault Value) (exact : Int) : Prop :=
  ∃ number, result = .ok (.int number) ∧ Represents number exact

/-- An operator keeps results exact if it wraps around between numbers. -/
theorem IsExact.binary {operator : BinaryOperator} {onInts : Int64 → Int64 → Int64}
    {onIntegers : Int → Int → Int} {left right : Except OperatorFault Value} {x y : Int}
    (applies : ∀ a b, operator.apply (.int a) (.int b) = .ok (.int (onInts a b)))
    (wraps : ∀ {a b : Int64}, Represents a x → Represents b y →
      Represents (onInts a b) (onIntegers x y))
    (first : IsExact left x) (second : IsExact right y) :
    IsExact (do operator.apply (← left) (← right)) (onIntegers x y) := by
  obtain ⟨a, rfl, representsLeft⟩ := first
  obtain ⟨b, rfl, representsRight⟩ := second
  exact ⟨onInts a b, applies a b, wraps representsLeft representsRight⟩

/-- Terms over integers, of the operators that always have a result. -/
inductive IntTerm where
  | int (number : Int64)
  | negate (operand : IntTerm)
  | add (left right : IntTerm)
  | subtract (left right : IntTerm)
  | multiply (left right : IntTerm)

namespace IntTerm

/-- What the operators make of the term. -/
def result : IntTerm → Except OperatorFault Value
  | int number => .ok (.int number)
  | negate operand => do UnaryOperator.negate.apply (← operand.result)
  | add left right => do BinaryOperator.add.apply (← left.result) (← right.result)
  | subtract left right => do BinaryOperator.subtract.apply (← left.result) (← right.result)
  | multiply left right => do BinaryOperator.multiply.apply (← left.result) (← right.result)

/-- What the term is in the integers. -/
def exact : IntTerm → Int
  | int number => number.toInt
  | negate operand => -operand.exact
  | add left right => left.exact + right.exact
  | subtract left right => left.exact - right.exact
  | multiply left right => left.exact * right.exact

/-- However deep a term is, wrapping around at each operator does no more than wrapping around
once at the end. -/
theorem isExact_result (term : IntTerm) : IsExact term.result term.exact := by
  induction term with
  | int number => exact ⟨number, rfl, .self number⟩
  | negate operand ih =>
    obtain ⟨number, found, represents⟩ := ih
    exact ⟨-number, by rw [result, found]; rfl, represents.negate⟩
  | add left right first second => exact .binary (fun _ _ => rfl) .add first second
  | subtract left right first second => exact .binary (fun _ _ => rfl) .subtract first second
  | multiply left right first second => exact .binary (fun _ _ => rfl) .multiply first second

theorem result_of_congruent {left right : IntTerm}
    (congruent : left.exact ≡ right.exact [ZMOD 2 ^ 64]) : left.result = right.result := by
  obtain ⟨a, foundLeft, representsLeft⟩ := left.isExact_result
  obtain ⟨b, foundRight, representsRight⟩ := right.isExact_result
  rw [foundLeft, foundRight, (representsLeft.trans congruent).unique representsRight]

/-- Every equation between the integers carries over to the results. -/
theorem result_of_exact {left right : IntTerm} (same : left.exact = right.exact) :
    left.result = right.result :=
  result_of_congruent (same ▸ rfl)

/-- The laws of commutative rings, between results of terms. -/
structure RingLaws : Prop where
  add_assoc (a b c : IntTerm) : ((a.add b).add c).result = (a.add (b.add c)).result
  add_comm (a b : IntTerm) : (a.add b).result = (b.add a).result
  add_zero (a : IntTerm) : (a.add (int 0)).result = a.result
  add_negate (a : IntTerm) : (a.add a.negate).result = (int 0).result
  subtract_eq (a b : IntTerm) : (a.subtract b).result = (a.add b.negate).result
  multiply_assoc (a b c : IntTerm) :
    ((a.multiply b).multiply c).result = (a.multiply (b.multiply c)).result
  multiply_comm (a b : IntTerm) : (a.multiply b).result = (b.multiply a).result
  multiply_one (a : IntTerm) : (a.multiply (int 1)).result = a.result
  multiply_add (a b c : IntTerm) :
    (a.multiply (b.add c)).result = ((a.multiply b).add (a.multiply c)).result

theorem ringLaws : RingLaws where
  add_assoc a b c := result_of_exact (by simp only [exact]; ring)
  add_comm a b := result_of_exact (by simp only [exact]; ring)
  add_zero a := result_of_exact (by simp [exact])
  add_negate a := result_of_exact (by simp [exact])
  subtract_eq a b := result_of_exact (by simp only [exact]; ring)
  multiply_assoc a b c := result_of_exact (by simp only [exact]; ring)
  multiply_comm a b := result_of_exact (by simp only [exact]; ring)
  multiply_one a := result_of_exact (by simp [exact])
  multiply_add a b c := result_of_exact (by simp only [exact]; ring)

end IntTerm

namespace BinaryOperator

/-- Between integers, an operator always has a result, which represents the exact one. -/
def Computes (operator : BinaryOperator) (exact : Int → Int → Int) : Prop :=
  ∀ a b : Int64, IsExact (operator.apply (.int a) (.int b)) (exact a.toInt b.toInt)

private theorem add_computes : add.Computes (· + ·) := fun a b =>
  (IntTerm.add (.int a) (.int b)).isExact_result

private theorem subtract_computes : subtract.Computes (· - ·) := fun a b =>
  (IntTerm.subtract (.int a) (.int b)).isExact_result

private theorem multiply_computes : multiply.Computes (· * ·) := fun a b =>
  (IntTerm.multiply (.int a) (.int b)).isExact_result

private theorem division_ints (operator : BinaryOperator) (onInts : Int64 → Int64 → Int64)
    (onDoubles : Float → Float → Float) (a b : Int64) :
    division operator onInts onDoubles (.int a) (.int b) =
      if b = 0 then .error (.zeroDivisor operator) else .ok (.int (onInts a b)) := by
  by_cases zero : b = 0
  · subst zero
    rfl
  · rw [if_neg zero, division, arithmetic]
    intro _ _ divisor
    exact zero (Value.int.inj divisor)

private theorem division_fails_iff (operator : BinaryOperator) (onInts : Int64 → Int64 → Int64)
    (onDoubles : Float → Float → Float) (a b : Int64) :
    (∃ fault, division operator onInts onDoubles (.int a) (.int b) = .error fault) ↔ b = 0 := by
  rw [division_ints]
  by_cases zero : b = 0 <;> simp [zero]

/-- Quotient and remainder of two numbers: the operators give them, they make up the dividend, the
remainder is less than the divisor and has the sign of the dividend, and the quotient is cut off
towards zero, unless it is `2 ^ 63`, which wraps around. -/
structure Division (a b quotient remainder : Int64) : Prop where
  divide : divide.apply (.int a) (.int b) = .ok (.int quotient)
  modulo : modulo.apply (.int a) (.int b) = .ok (.int remainder)
  restores : (IntTerm.add (.multiply (.int quotient) (.int b)) (.int remainder)).result =
    .ok (.int a)
  smaller : |remainder.toInt| < |b.toInt|
  sign : remainder.toInt = 0 ∨ remainder.toInt.sign = a.toInt.sign
  truncated : quotient.toInt =
    if a.toInt = -2 ^ 63 ∧ b.toInt = -1 then -2 ^ 63 else a.toInt.tdiv b.toInt

private theorem toInt_quotient (a b : Int64) : (a / b).toInt =
    if a.toInt = -2 ^ 63 ∧ b.toInt = -1 then -2 ^ 63 else a.toInt.tdiv b.toInt := by
  split
  · rename_i overflows
    obtain rfl : a = .minValue := Int64.toInt_inj.mp overflows.1
    obtain rfl : b = -1 := Int64.toInt_inj.mp overflows.2
    rfl
  · rename_i fits
    by_cases least : a = .minValue
    · have other : b ≠ -1 := by
        rintro rfl
        exact fits ⟨congrArg Int64.toInt least, rfl⟩
      exact Int64.toInt_div_of_ne_right a b other
    · exact Int64.toInt_div_of_ne_left a b least

/-- The quotient represents the exact one also where it wraps around, and so the dividend comes
out again. -/
theorem restores_dividend (a b : Int64) :
    (IntTerm.add (.multiply (.int (a / b)) (.int b)) (.int (a % b))).result = .ok (.int a) := by
  change _ = (IntTerm.int a).result
  apply IntTerm.result_of_congruent
  have quotient := (Represents.of_bmod (Int64.toInt_div a b)).congruent
  calc (a / b).toInt * b.toInt + (a % b).toInt
      ≡ a.toInt.tdiv b.toInt * b.toInt + (a % b).toInt [ZMOD 2 ^ 64] :=
        (quotient.mul_right _).add_right _
    _ = a.toInt := by rw [Int64.toInt_mod, Int.tdiv_mul_add_tmod]

private theorem division_of_ne_zero {a b : Int64} (nonzero : b ≠ 0) : Division a b (a / b)
    (a % b) where
  divide := (division_ints _ _ _ a b).trans (if_neg nonzero)
  modulo := (division_ints _ _ _ a b).trans (if_neg nonzero)
  restores := restores_dividend a b
  smaller := by
    have positive : 0 < b.toInt.natAbs := by
      rw [Int.natAbs_pos]
      exact fun zero => nonzero (Int64.toInt_inj.mp zero)
    rw [Int64.toInt_mod, Int.abs_eq_natAbs, Int.abs_eq_natAbs, Int.natAbs_tmod]
    exact_mod_cast Nat.mod_lt _ positive
  sign := by
    rw [Int64.toInt_mod, ← Int.sign_eq_zero_iff_zero, Int.sign_tmod]
    split
    · exact .inl rfl
    · exact .inr rfl
  truncated := toInt_quotient a b

/-- Between integers, an operator always has a result, which tells whether the relation holds. -/
def Decides (operator : BinaryOperator) (relation : Int → Int → Prop) : Prop :=
  ∀ a b : Int64, ∃ truth, operator.apply (.int a) (.int b) = .ok (.bool truth) ∧
    (truth = true ↔ relation a.toInt b.toInt)

def Holds (operator : BinaryOperator) (a b : Int64) : Prop :=
  operator.apply (.int a) (.int b) = .ok (.bool true)

theorem Decides.holds_iff {operator : BinaryOperator} {relation : Int → Int → Prop}
    (decides : operator.Decides relation) (a b : Int64) :
    operator.Holds a b ↔ relation a.toInt b.toInt := by
  obtain ⟨truth, found, iff⟩ := decides a b
  rw [Holds, found, ← iff]
  simp

private theorem equal_decides : equal.Decides (· = ·) := fun a b =>
  ⟨a == b, rfl, by simp [Int64.toInt_inj]⟩

private theorem notEqual_decides : notEqual.Decides (· ≠ ·) := fun a b =>
  ⟨!(a == b), rfl, by simp [Int64.toInt_inj]⟩

private theorem less_decides : less.Decides (· < ·) := fun a b =>
  ⟨decide (a < b), rfl, by simp [Int64.lt_iff_toInt_lt]⟩

private theorem greaterEqual_decides : greaterEqual.Decides (· ≥ ·) := fun a b =>
  ⟨!decide (a < b), rfl, by simp [Int64.lt_iff_toInt_lt]⟩

private theorem lessEqual_decides : lessEqual.Decides (· ≤ ·) := fun a b =>
  ⟨decide (a < b) || a == b, rfl, by simp [Int64.lt_iff_toInt_lt, ← Int64.toInt_inj]; omega⟩

private theorem greater_decides : greater.Decides (· > ·) := fun a b =>
  ⟨!decide (a < b) && !(a == b), rfl, by
    simp [Int64.lt_iff_toInt_lt, ← Int64.toInt_inj]; omega⟩

/-- The integers in their order. -/
theorem isLinearOrder_lessEqual : IsLinearOrder Int64 lessEqual.Holds where
  refl a := (lessEqual_decides.holds_iff a a).mpr (le_refl _)
  trans a b c first second := by
    rw [lessEqual_decides.holds_iff] at first second ⊢
    exact le_trans first second
  antisymm a b first second := by
    rw [lessEqual_decides.holds_iff] at first second
    exact Int64.toInt_inj.mp (le_antisymm first second)
  total a b := by
    rw [lessEqual_decides.holds_iff, lessEqual_decides.holds_iff]
    exact le_total _ _

private theorem trichotomy (a b : Int64) :
    ∃! operator, operator ∈ [less, equal, greater] ∧ operator.Holds a b := by
  have first := less_decides.holds_iff a b
  have second := equal_decides.holds_iff a b
  have third := greater_decides.holds_iff a b
  rcases lt_trichotomy a.toInt b.toInt with below | same | above
  · refine ⟨less, ⟨by simp, first.mpr below⟩, ?_⟩
    grind
  · refine ⟨equal, ⟨by simp, second.mpr same⟩, ?_⟩
    grind
  · refine ⟨greater, ⟨by simp, third.mpr above⟩, ?_⟩
    grind

/-- Operators on integers are exact modulo `2 ^ 64`. Sums, differences and products always have a
result, which represents the exact one, so the laws of commutative rings hold, and a number is
negated by taking it from zero; division fails for the divisor zero alone, and otherwise quotient
and remainder make up the dividend; and the comparisons always have a result, which is that
between the integers, so that they belong to one total order. -/
theorem ints_exact :
    (add.Computes (· + ·) ∧ subtract.Computes (· - ·) ∧ multiply.Computes (· * ·)) ∧
    IntTerm.RingLaws ∧
    (∀ a : Int64, UnaryOperator.negate.apply (.int a) = subtract.apply (.int 0) (.int a)) ∧
    (∀ a b : Int64, ((∃ fault, divide.apply (.int a) (.int b) = .error fault) ↔ b = 0) ∧
      ((∃ fault, modulo.apply (.int a) (.int b) = .error fault) ↔ b = 0)) ∧
    (∀ a b : Int64, b ≠ 0 → ∃ quotient remainder, Division a b quotient remainder) ∧
    (less.Decides (· < ·) ∧ lessEqual.Decides (· ≤ ·) ∧ greater.Decides (· > ·) ∧
      greaterEqual.Decides (· ≥ ·) ∧ equal.Decides (· = ·) ∧ notEqual.Decides (· ≠ ·)) ∧
    IsLinearOrder Int64 lessEqual.Holds ∧
    ∀ a b : Int64, ∃! operator, operator ∈ [less, equal, greater] ∧ operator.Holds a b := by
  refine ⟨⟨add_computes, subtract_computes, multiply_computes⟩, IntTerm.ringLaws, ?_, ?_, ?_,
    ⟨less_decides, lessEqual_decides, greater_decides, greaterEqual_decides, equal_decides,
      notEqual_decides⟩, isLinearOrder_lessEqual, trichotomy⟩
  · intro a
    have negated : (IntTerm.int a).negate.result = (IntTerm.subtract (.int 0) (.int a)).result :=
      IntTerm.result_of_exact (by simp [IntTerm.exact])
    exact negated
  · intro a b
    exact ⟨division_fails_iff _ _ _ a b, division_fails_iff _ _ _ a b⟩
  · intro a b nonzero
    exact ⟨a / b, a % b, division_of_ne_zero nonzero⟩

/-- The one quotient that does not fit wraps around, and nothing remains. -/
theorem least_divided :
    (-1 : Int64) ≠ 0 ∧ divide.apply (.int .minValue) (.int (-1)) = .ok (.int .minValue) ∧
      modulo.apply (.int .minValue) (.int (-1)) = .ok (.int 0) := by
  have nonzero : (-1 : Int64) ≠ 0 := by decide
  obtain ⟨_, _, _, _, divided, _⟩ := ints_exact
  obtain ⟨quotient, remainder, division⟩ := divided .minValue (-1) nonzero
  have least : quotient = .minValue := Int64.toInt_inj.mp division.truncated
  have nothing : remainder = 0 := by
    have below : |remainder.toInt| < 1 := division.smaller
    exact Int64.toInt_inj.mp (Int.abs_lt_one_iff.mp below)
  exact ⟨nonzero, least ▸ division.divide, nothing ▸ division.modulo⟩

end BinaryOperator

end Scriptlet
