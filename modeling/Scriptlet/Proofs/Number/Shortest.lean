import Scriptlet.Number.Shortest
import Scriptlet.Proofs.Number.Bits

/-! The shortest decimal of a number. The search for it ends within twenty grids, because the
last of them is finer than the basin of the number; so the decimal lies in that basin. Basins of
different numbers are apart, and the decimal therefore tells which number it is the decimal of. -/
namespace Scriptlet.Number

/-- The number that a decimal stands for. -/
def Decimal.value (decimal : Decimal) : ℚ := decimal.digits * 10 ^ decimal.exponent

theorem twoTo_pos (power : Int) : 0 < twoTo power := Nat.pow_pos (by decide)

theorem tenTo_pos (power : Int) : 0 < tenTo power := Nat.pow_pos (by decide)

theorem two_zpow (power : Int) : (2 : ℚ) ^ power * twoTo (-power) = twoTo power := by
  rcases Int.eq_nat_or_neg power with ⟨count, rfl | rfl⟩
  · simp [twoTo]
  · simp [twoTo]

theorem ten_zpow (power : Int) : (10 : ℚ) ^ power * tenTo (-power) = tenTo power := by
  rcases Int.eq_nat_or_neg power with ⟨count, rfl | rfl⟩
  · simp [tenTo]
  · simp [tenTo]

/-- The two grids are compared without fractions. -/
theorem Grid.of_scale (power exponent : Int) :
    ∃ scale : ℚ, 0 < scale ∧ ((Grid.of power exponent).decimal : ℚ) = 10 ^ power * scale ∧
      ((Grid.of power exponent).binary : ℚ) = 2 ^ exponent * scale := by
  refine ⟨tenTo (-power) * twoTo (-exponent), ?_, ?_, ?_⟩
  · exact_mod_cast Nat.mul_pos (tenTo_pos _) (twoTo_pos _)
  · simp only [Grid.of]
    push_cast
    rw [← ten_zpow power]
    ring
  · simp only [Grid.of]
    push_cast
    rw [← two_zpow exponent]
    ring

private theorem Grid.binary_le_iff (power exponent : Int) (point other : Nat) :
    point * (Grid.of power exponent).binary ≤ other * (Grid.of power exponent).decimal ↔
      (point : ℚ) * 2 ^ exponent ≤ other * 10 ^ power := by
  obtain ⟨scale, positive, decimal, binary⟩ := Grid.of_scale power exponent
  rw [← @Nat.cast_le ℚ]
  push_cast
  rw [decimal, binary, ← mul_assoc, ← mul_assoc, mul_le_mul_iff_left₀ positive]

private theorem Grid.decimal_le_iff (power exponent : Int) (point other : Nat) :
    other * (Grid.of power exponent).decimal ≤ point * (Grid.of power exponent).binary ↔
      (other : ℚ) * 10 ^ power ≤ point * 2 ^ exponent := by
  obtain ⟨scale, positive, decimal, binary⟩ := Grid.of_scale power exponent
  rw [← @Nat.cast_le ℚ]
  push_cast
  rw [decimal, binary, ← mul_assoc, ← mul_assoc, mul_le_mul_iff_left₀ positive]

/-- The numbers of a basin whose quarters have the given size. -/
def Basin.Covers (basin : Basin) (quarter number : ℚ) : Prop :=
  if basin.closed then basin.low * quarter ≤ number ∧ number ≤ basin.high * quarter
  else basin.low * quarter < number ∧ number < basin.high * quarter

private theorem Basin.contains_iff (basin : Basin) (power exponent : Int) (point : Nat) :
    basin.contains (.of power exponent) point = true ↔
      basin.Covers (2 ^ exponent) (point * 10 ^ power) := by
  simp only [contains, Covers]
  split
  · rw [Bool.and_eq_true, decide_eq_true_eq, decide_eq_true_eq, Grid.binary_le_iff,
      Grid.decimal_le_iff]
  · rw [Bool.and_eq_true, decide_eq_true_eq, decide_eq_true_eq,
      lt_iff_lt_of_le_iff_le (Grid.decimal_le_iff ..),
      lt_iff_lt_of_le_iff_le (Grid.binary_le_iff ..)]

variable {basin : Basin} {tie : Tie} {grid : Grid}

private theorem Basin.contains_of_nearest? {point : Nat}
    (found : basin.nearest? tie grid = some point) : basin.contains grid point = true := by
  simp only [nearest?] at found
  split at found
  · cases found
  · cases found
    assumption
  · cases found
    assumption
  · split at found
    · cases found
      assumption
    · split at found
      · cases found
        assumption
      · cases tie with
        | upward =>
          cases found
          assumption
        | toEven =>
          cases found
          split <;> assumption

/-- The neighbours of the middle are not all outside of the basin if the grid is finer than a
quarter. -/
theorem Basin.nearest?_ne_none (low : basin.low < basin.middle) (high : basin.middle < basin.high)
    (positive : 0 < grid.decimal) (fine : grid.decimal ≤ grid.binary) :
    basin.nearest? tie grid ≠ none := by
  have quotient := Nat.div_add_mod (basin.middle * grid.binary) grid.decimal
  have rest := Nat.mod_lt (basin.middle * grid.binary) positive
  have left := Nat.mul_le_mul_right grid.binary (Nat.succ_le_of_lt low)
  have right := Nat.mul_le_mul_right grid.binary (Nat.succ_le_of_lt high)
  have inside : basin.contains grid (basin.middle * grid.binary / grid.decimal) = true := by
    rw [Nat.mul_comm] at quotient
    simp only [Nat.succ_mul] at left right
    simp only [contains]
    split <;> simp only [Bool.and_eq_true, decide_eq_true_eq] <;> omega
  simp only [nearest?, inside]
  split
  · contradiction
  · simp
  · simp
  · split
    · simp
    · split
      · simp
      · cases tie <;> simp

/-- Powers of ten and of two are compared by comparing one of each. -/
theorem ten_zpow_le_two_zpow_of {power exponent : Int} {tens twos : Nat} (some : tens ≠ 0)
    (one : ((10 : ℚ) ^ tens) ^ power ≤ (2 ^ twos) ^ power)
    (steps : twos * power ≤ tens * exponent) : (10 : ℚ) ^ power ≤ 2 ^ exponent := by
  apply le_of_pow_le_pow_left₀ some (zpow_nonneg (by norm_num) _)
  calc ((10 : ℚ) ^ power) ^ tens = (10 ^ tens) ^ power := by
        rw [← zpow_natCast, ← zpow_natCast, ← zpow_mul, ← zpow_mul, mul_comm]
    _ ≤ (2 ^ twos) ^ power := one
    _ = 2 ^ (twos * power) := by rw [zpow_mul, zpow_natCast]
    _ ≤ 2 ^ (tens * exponent) := zpow_le_zpow_right₀ (by norm_num) steps
    _ = (2 ^ exponent) ^ tens := by rw [mul_comm, zpow_mul, zpow_natCast]

/-- A power of ten is at most a power of two if its exponent is small enough. The two fractions
are just below and just above the logarithm of two to the base ten. -/
theorem ten_zpow_le_two_zpow {power exponent : Int} (below : 103 * power ≤ 31 * exponent)
    (above : 93 * power ≤ 28 * exponent) : (10 : ℚ) ^ power ≤ 2 ^ exponent := by
  rcases Int.le_total 0 power with positive | negative
  · apply @ten_zpow_le_two_zpow_of power exponent 31 103 (by decide) _ below
    exact zpow_le_zpow_left₀ positive (by norm_num) (by norm_num)
  · apply @ten_zpow_le_two_zpow_of power exponent 28 93 (by decide) _ above
    obtain ⟨count, rfl⟩ := Int.exists_eq_neg_ofNat negative
    rw [zpow_neg, zpow_neg, zpow_natCast, zpow_natCast]
    exact inv_anti₀ (by positivity) (pow_le_pow_left₀ (by norm_num) (by norm_num) _)

variable {mantissa other : Nat} {exponent power : Int}

/-- The twentieth grid of the search is finer than a quarter of the last binary place. -/
theorem fine_of_powerAbove (canonical : Canonical mantissa exponent) (positive : 0 < mantissa) :
    (10 : ℚ) ^ (powerAbove mantissa exponent - 19) ≤ 2 ^ (exponent - 2) := by
  obtain ⟨least, largest, bound, _⟩ := canonical
  have length : mantissa.log2 < 53 := (Nat.log2_lt (by omega)).mpr bound
  simp only [leastExponent, lastField] at least largest
  apply ten_zpow_le_two_zpow
  all_goals
    simp only [powerAbove]
    omega

theorem Basin.of_low_lt (positive : 0 < mantissa) :
    (Basin.of mantissa exponent).low < (Basin.of mantissa exponent).middle := by
  simp only [Basin.of]
  split <;> omega

private theorem refine_covers (positive : 0 < mantissa) (steps : Nat)
    (fine : (10 : ℚ) ^ (power - steps) ≤ 2 ^ (exponent - 2)) :
    (Basin.of mantissa exponent).Covers (2 ^ (exponent - 2))
      (refine tie mantissa exponent (steps + 1) power).value := by
  induction steps generalizing power with
  | zero =>
    rw [refine]
    have present : (Basin.of mantissa exponent).nearest? tie (.of power (exponent - 2)) ≠ none := by
      apply Basin.nearest?_ne_none (Basin.of_low_lt positive) (by simp [Basin.of])
      · exact Nat.mul_pos (tenTo_pos _) (twoTo_pos _)
      · simpa using (Grid.decimal_le_iff power (exponent - 2) 1 1).mpr (by simpa using fine)
    cases found : (Basin.of mantissa exponent).nearest? tie (.of power (exponent - 2)) with
    | none => exact absurd found present
    | some digits => exact (Basin.contains_iff ..).mp (Basin.contains_of_nearest? found)
  | succ steps ih =>
    rw [refine]
    cases found : (Basin.of mantissa exponent).nearest? tie (.of power (exponent - 2)) with
    | none =>
      have same : power - 1 - steps = power - (steps + 1 : Nat) := by omega
      exact ih (by rwa [same])
    | some digits => exact (Basin.contains_iff ..).mp (Basin.contains_of_nearest? found)

/-- The shortest decimal of a number rounds to that number. -/
theorem shortest_covers (canonical : Canonical mantissa exponent) :
    (Basin.of mantissa exponent).Covers (2 ^ (exponent - 2))
      (shortest tie mantissa exponent).value := by
  rw [shortest]
  split
  · rename_i zero
    subst zero
    simp [Basin.Covers, Basin.of, Decimal.value, leadingBit]
    positivity
  · rename_i nonzero
    have positive := Nat.pos_of_ne_zero nonzero
    exact refine_covers positive 19 (fine_of_powerAbove canonical positive)

theorem Basin.Covers.bounds {quarter number : ℚ} (covers : basin.Covers quarter number) :
    basin.low * quarter ≤ number ∧ number ≤ basin.high * quarter := by
  rw [Basin.Covers] at covers
  split at covers
  · exact covers
  · exact ⟨covers.1.le, covers.2.le⟩

/-- An odd mantissa rounds nothing at the ends of its basin. -/
theorem Basin.Covers.inside {quarter number : ℚ} (odd : mantissa % 2 = 1)
    (covers : (Basin.of mantissa exponent).Covers quarter number) :
    (Basin.of mantissa exponent).low * quarter < number ∧
      number < (Basin.of mantissa exponent).high * quarter := by
  have opened : (Basin.of mantissa exponent).closed = false := by simp [Basin.of, odd]
  simpa [Basin.Covers, opened] using covers

/-- The basins of two numbers with one exponent meet at most in an end, and there one of them is
open. -/
theorem covers_lt_of_mantissa {number second : ℚ} (less : mantissa < other)
    (covers : (Basin.of mantissa exponent).Covers (2 ^ (exponent - 2)) number)
    (covered : (Basin.of other exponent).Covers (2 ^ (exponent - 2)) second) :
    number < second := by
  have quarter : (0 : ℚ) < 2 ^ (exponent - 2) := by positivity
  have high : ((Basin.of mantissa exponent).high : ℚ) ≤ (Basin.of other exponent).low := by
    simp only [Basin.of]
    split <;> norm_cast <;> omega
  have apart := mul_le_mul_of_nonneg_right high quarter.le
  rcases Nat.mod_two_eq_zero_or_one mantissa with even | odd
  · rcases Nat.mod_two_eq_zero_or_one other with also | also
    · have strict : ((Basin.of mantissa exponent).high : ℚ) < (Basin.of other exponent).low := by
        simp only [Basin.of]
        split <;> norm_cast <;> omega
      have between := mul_lt_mul_of_pos_right strict quarter
      linarith [covers.bounds, covered.bounds]
    · linarith [covers.bounds, (covered.inside also).1]
  · linarith [(covers.inside odd).2, covered.bounds]

private theorem covers_lt_of_exponent {number second : ℚ} {above : Int} (less : exponent < above)
    (canonical : Canonical mantissa exponent) (others : Canonical other above)
    (covers : (Basin.of mantissa exponent).Covers (2 ^ (exponent - 2)) number)
    (covered : (Basin.of other above).Covers (2 ^ (above - 2)) second) : number < second := by
  have quarter : (0 : ℚ) < 2 ^ (exponent - 2) := by positivity
  have double : 2 * (2 : ℚ) ^ (exponent - 2) ≤ 2 ^ (above - 2) := by
    rw [← zpow_one_add₀ (by norm_num)]
    exact zpow_le_zpow_right₀ (by norm_num) (by omega)
  have beyond := lt_of_le_of_lt canonical.least less
  have leading := others.leading beyond
  have low : (4 * leadingBit - 1 : ℚ) ≤ (Basin.of other above).low := by
    have large : 4 * leadingBit ≤ (Basin.of other above).low + 1 := by
      simp only [Basin.of]
      split <;> omega
    rw [sub_le_iff_le_add]
    exact_mod_cast large
  have start : (8 * leadingBit - 2) * (2 : ℚ) ^ (exponent - 2) ≤ second := by
    calc (8 * leadingBit - 2) * (2 : ℚ) ^ (exponent - 2)
        = (4 * leadingBit - 1) * (2 * 2 ^ (exponent - 2)) := by ring
      _ ≤ (Basin.of other above).low * 2 ^ (above - 2) :=
          mul_le_mul low double (by positivity) (by positivity)
      _ ≤ second := covered.bounds.1
  have bound := canonical.bound
  rcases Nat.mod_two_eq_zero_or_one mantissa with even | odd
  · have high : ((Basin.of mantissa exponent).high : ℚ) < 8 * leadingBit - 2 := by
      rw [lt_sub_iff_add_lt]
      simp only [Basin.of]
      norm_cast
      simp only [leadingBit] at *
      omega
    linarith [covers.bounds, mul_lt_mul_of_pos_right high quarter]
  · have high : ((Basin.of mantissa exponent).high : ℚ) ≤ 8 * leadingBit - 2 := by
      rw [le_sub_iff_add_le]
      simp only [Basin.of]
      norm_cast
      omega
    linarith [covers.inside odd, mul_le_mul_of_nonneg_right high quarter.le]

theorem shortest_injective {otherExponent : Int} (canonical : Canonical mantissa exponent)
    (others : Canonical other otherExponent)
    (same : (shortest tie mantissa exponent).value = (shortest tie other otherExponent).value) :
    mantissa = other ∧ exponent = otherExponent := by
  have covers := @shortest_covers tie _ _ canonical
  have covered := @shortest_covers tie _ _ others
  rcases lt_trichotomy exponent otherExponent with less | rfl | more
  · exact absurd same (covers_lt_of_exponent less canonical others covers covered).ne
  · rcases lt_trichotomy mantissa other with less | rfl | more
    · exact absurd same (covers_lt_of_mantissa less covers covered).ne
    · exact ⟨rfl, rfl⟩
    · exact absurd same (covers_lt_of_mantissa more covered covers).ne'
  · exact absurd same (covers_lt_of_exponent more others canonical covered covers).ne'

end Scriptlet.Number
