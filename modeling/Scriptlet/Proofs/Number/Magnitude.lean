import Scriptlet.Proofs.Number.Layout
import Scriptlet.Proofs.Number.Rounding

/-! How large a number is, and where its shortest decimal begins. A number and its shortest decimal
stand on the same side of a power of ten, unless the number is the nearest one to that power. So
the size of a number tells whether it is written with an exponent. -/
namespace Scriptlet.Number

/-- How far a finite number is away from zero. -/
def Reading.magnitude? : Reading → Option ℚ
  | finite _ mantissa exponent => some (mantissa * 2 ^ exponent)
  | _ => none

/-- The power of ten of the first digit of a decimal. -/
def Decimal.lead (decimal : Decimal) : Int :=
  decimal.exponent + ((Nat.toDigits 10 decimal.digits).length - 1 : Nat)

theorem Layout.decimal_eq (layout : Layout) (decimal : Decimal) :
    layout.decimal decimal =
      if layout.positional decimal.lead then
        layout.point (Nat.toDigits 10 decimal.digits) decimal.lead
      else layout.scientific (Nat.toDigits 10 decimal.digits) decimal.lead :=
  rfl

/-- A decimal is below a power of ten if its first digit stands below it. -/
theorem Decimal.lead_lt_iff {decimal : Decimal} (some : decimal.digits ≠ 0) (power : Int) :
    decimal.lead < power ↔ decimal.value < 10 ^ power := by
  have count := @Nat.length_toDigits_pos 10 decimal.digits
  have scaled : decimal.value < 10 ^ power ↔
      (decimal.digits : ℚ) < 10 ^ (power - decimal.exponent) := by
    rw [value, zpow_sub₀ (by norm_num), lt_div_iff₀ (by positivity)]
  rw [scaled, lead]
  rcases Int.lt_or_le 0 (power - decimal.exponent) with above | below
  · obtain ⟨places, same⟩ := Int.eq_ofNat_of_zero_le above.le
    have fits := @Nat.length_toDigits_le_iff 10 decimal.digits places (by decide) (by omega)
    rw [same, zpow_natCast]
    norm_cast
    rw [← fits]
    omega
  · have small : (10 : ℚ) ^ (power - decimal.exponent) ≤ 1 :=
      zpow_le_one_of_nonpos₀ (by norm_num) below
    have least : (1 : ℚ) ≤ decimal.digits := by exact_mod_cast Nat.pos_of_ne_zero some
    constructor
    · intro less
      omega
    · intro less
      linarith

/-- A basin has no gaps. -/
theorem Basin.Covers.between {basin : Basin} {quarter first second number : ℚ}
    (start : basin.Covers quarter first) (last : basin.Covers quarter second)
    (above : first ≤ number) (below : number ≤ second) : basin.Covers quarter number := by
  unfold Basin.Covers at *
  split at start
  · rename_i closed
    rw [if_pos closed] at last ⊢
    exact ⟨start.1.trans above, below.trans last.2⟩
  · rename_i opened
    rw [if_neg opened] at last ⊢
    exact ⟨start.1.trans_le above, below.trans_lt last.2⟩

/-- A number rounds to itself. -/
theorem Basin.covers_middle (mantissa : Nat) (exponent : Int) :
    (Basin.of mantissa exponent).Covers (2 ^ (exponent - 2)) (mantissa * 2 ^ exponent) := by
  have quarter : (0 : ℚ) < 2 ^ (exponent - 2) := by positivity
  have place : (mantissa * 2 ^ exponent : ℚ) = (4 * mantissa : Nat) * 2 ^ (exponent - 2) := by
    rw [two_zpow_eq_quarters]
    push_cast
    ring
  have high : 4 * mantissa < (Basin.of mantissa exponent).high := by simp [Basin.of]
  rw [place, Basin.Covers]
  split
  · have low : (Basin.of mantissa exponent).low ≤ 4 * mantissa := by
      simp only [Basin.of]
      split <;> omega
    exact ⟨mul_le_mul_of_nonneg_right (by exact_mod_cast low) quarter.le,
      mul_le_mul_of_nonneg_right (by exact_mod_cast high.le) quarter.le⟩
  · rename_i opened
    have positive : 0 < mantissa := by
      rcases Nat.eq_zero_or_pos mantissa with rfl | positive
      · exact absurd rfl opened
      · exact positive
    have low : (Basin.of mantissa exponent).low < 4 * mantissa := Basin.of_low_lt positive
    exact ⟨mul_lt_mul_of_pos_right (by exact_mod_cast low) quarter,
      mul_lt_mul_of_pos_right (by exact_mod_cast high) quarter⟩

private theorem ten_zpow_eq_div (power : Int) :
    (10 : ℚ) ^ power = tenTo power / tenTo (-power) := by
  have unit : (tenTo (-power) : ℚ) ≠ 0 := by exact_mod_cast (tenTo_pos (-power)).ne'
  rw [eq_div_iff unit, ten_zpow]

section Sides

variable {number : Float} {negative : Bool} {mantissa : Nat} {exponent power : Int} {tie : Tie}
  (read : Reading.ofFloat number = .finite negative mantissa exponent)

include read in
/-- Where a power of ten separates a number from its shortest decimal, that power rounds to the
number. -/
theorem nearest_of_separated (apart : ¬ ((shortest tie mantissa exponent).value < 10 ^ power ↔
      (mantissa * 2 ^ exponent : ℚ) < 10 ^ power)) :
    nearest negative (tenTo power) (tenTo (-power)) = number := by
  obtain ⟨canonical, _⟩ := Reading.ofBits_eq_finite number.toBits.toNat_lt read
  have covers := @shortest_covers tie _ _ canonical
  have middle := Basin.covers_middle mantissa exponent
  apply nearest_of_covers read (tenTo_pos _)
  rw [← ten_zpow_eq_div]
  rcases lt_or_ge (shortest tie mantissa exponent).value (10 ^ power) with below | above
  · have reached : (10 : ℚ) ^ power ≤ mantissa * 2 ^ exponent := by
      by_contra short
      exact apart ⟨fun _ => not_le.mp short, fun _ => below⟩
    exact covers.between middle below.le reached
  · have short : (mantissa * 2 ^ exponent : ℚ) < 10 ^ power := by
      by_contra reached
      exact apart ⟨fun less => absurd less (not_lt.mpr above), fun less => absurd less reached⟩
    exact middle.between covers short.le above

end Sides

/-- Powers of ten that are the shortest decimals of the numbers nearest to them, where these numbers
are not smaller. -/
structure Sharp (tie : Tie) (power : Int) (mantissa : Nat) (exponent : Int) : Prop where
  rounded : Reading.ofBits (nearestBits (tenTo power) (tenTo (-power))) =
    .finite false mantissa exponent
  decimal : shortest tie mantissa exponent = ⟨1, power⟩
  reached : (10 : ℚ) ^ power ≤ mantissa * 2 ^ exponent

theorem sharp_large : Sharp .upward 16 5000000000000000 1 where
  rounded := by decide +kernel
  decimal := by decide +kernel
  reached := by norm_num

theorem sharp_small : Sharp .upward (-4) 7378697629483821 (-66) where
  rounded := by decide +kernel
  decimal := by decide +kernel
  reached := by norm_num

/-- A number and its shortest decimal are on the same side of such a power of ten. -/
theorem Sharp.side {tie : Tie} {power : Int} {unit : Nat} {scale : Int}
    (sharp : Sharp tie power unit scale) {number : Float} {mantissa : Nat} {exponent : Int}
    (read : Reading.ofFloat number = .finite false mantissa exponent) :
    (shortest tie mantissa exponent).value < 10 ^ power ↔
      (mantissa * 2 ^ exponent : ℚ) < 10 ^ power := by
  by_contra apart
  have same := nearest_of_separated read apart
  rw [← same, Reading.ofFloat_nearest, sharp.rounded] at read
  cases read
  apply apart
  rw [sharp.decimal, Decimal.value, Nat.cast_one, one_mul]
  exact iff_of_false (lt_irrefl _) (not_lt.mpr sharp.reached)

end Scriptlet.Number
