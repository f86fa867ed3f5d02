import Scriptlet.Proofs.Number.Shortest

/-! Rounding to the nearest number. Whatever lies in the basin of a number rounds to the pattern
of that number, so that the shortest decimal of a number reads back as it. -/
namespace Scriptlet.Number

/-- A quotient rounds to an integer that is at most a half away; one that is a half away has to be
even. -/
theorem roundHalfEven_eq {numerator denominator whole : Nat} (positive : 0 < denominator)
    (low : 2 * whole * denominator ≤ 2 * numerator + denominator)
    (high : 2 * numerator ≤ (2 * whole + 1) * denominator)
    (strict : whole % 2 = 1 → 2 * whole * denominator < 2 * numerator + denominator ∧
      2 * numerator < (2 * whole + 1) * denominator) :
    roundHalfEven numerator denominator = whole := by
  have split := Nat.div_add_mod numerator denominator
  have rest := Nat.mod_lt numerator positive
  simp only [roundHalfEven]
  generalize numerator / denominator = quotient at *
  generalize numerator % denominator = left at *
  subst split
  have below : quotient ≤ whole := by
    by_contra above
    nlinarith
  have above : whole ≤ quotient + 1 := by
    by_contra beyond
    nlinarith
  obtain rfl | rfl : whole = quotient ∨ whole = quotient + 1 := by omega
  · rw [if_pos]
    have half : 2 * left ≤ denominator := by linarith
    rcases Nat.lt_or_eq_of_le half with less | tie
    · exact .inl less
    · refine .inr ⟨tie, ?_⟩
      by_contra odd
      have beyond := (strict (by omega)).2
      linarith
  · rw [if_neg]
    rintro (less | ⟨tie, even⟩)
    · linarith
    · have beyond := (strict (by omega)).1
      linarith

private theorem twoTo_lt_iff (numerator denominator bound : Nat) (positive : 0 < denominator)
    (power : Int) :
    numerator * twoTo (-power) < bound * denominator * twoTo power ↔
      (numerator / denominator : ℚ) < bound * 2 ^ power := by
  have unit : (0 : ℚ) < twoTo (-power) := by exact_mod_cast twoTo_pos _
  have divisor : (0 : ℚ) < denominator := by exact_mod_cast positive
  rw [← @Nat.cast_lt ℚ, div_lt_iff₀ divisor]
  push_cast
  rw [← two_zpow power, ← mul_assoc, mul_lt_mul_iff_left₀ unit]
  constructor <;> intro less <;> linarith

/-- The numbers of bits give the size of a quotient up to a factor of two. -/
theorem quotient_bounds {numerator denominator : Nat} (some : 0 < numerator)
    (positive : 0 < denominator) :
    (2 : ℚ) ^ ((numerator.log2 : Int) - denominator.log2 - 1) ≤ numerator / denominator ∧
      (numerator / denominator : ℚ) < 2 ^ ((numerator.log2 : Int) - denominator.log2 + 1) := by
  have low : (2 : ℚ) ^ (numerator.log2 : Int) ≤ numerator := by
    exact_mod_cast Nat.log2_self_le some.ne'
  have high : (numerator : ℚ) < 2 ^ (numerator.log2 + 1 : Int) := by
    exact_mod_cast Nat.lt_log2_self
  have least : (2 : ℚ) ^ (denominator.log2 : Int) ≤ denominator := by
    exact_mod_cast Nat.log2_self_le positive.ne'
  have most : (denominator : ℚ) < 2 ^ (denominator.log2 + 1 : Int) := by
    exact_mod_cast Nat.lt_log2_self
  have divisor : (0 : ℚ) < denominator := by exact_mod_cast positive
  rw [le_div_iff₀ divisor, div_lt_iff₀ divisor]
  constructor
  · calc (2 : ℚ) ^ ((numerator.log2 : Int) - denominator.log2 - 1) * denominator
        ≤ 2 ^ ((numerator.log2 : Int) - denominator.log2 - 1) * 2 ^ (denominator.log2 + 1 : Int) :=
          mul_le_mul_of_nonneg_left most.le (by positivity)
      _ = 2 ^ (numerator.log2 : Int) := by
          rw [← zpow_add₀ two_ne_zero]
          congr 1
          ring
      _ ≤ numerator := low
  · calc (numerator : ℚ) < 2 ^ (numerator.log2 + 1 : Int) := high
      _ = 2 ^ ((numerator.log2 : Int) - denominator.log2 + 1) * 2 ^ (denominator.log2 : Int) := by
          rw [← zpow_add₀ two_ne_zero]
          congr 1
          ring
      _ ≤ 2 ^ ((numerator.log2 : Int) - denominator.log2 + 1) * denominator :=
          mul_le_mul_of_nonneg_left least (by positivity)

private theorem leadingBit_mul (power : Int) : leadingBit * (2 : ℚ) ^ power = 2 ^ (52 + power) := by
  rw [zpow_add₀ two_ne_zero]
  norm_num [leadingBit]

theorem two_zpow_eq_quarters (power : Int) : (2 : ℚ) ^ power = 4 * 2 ^ (power - 2) := by
  rw [zpow_sub₀ two_ne_zero]
  norm_num
  ring

private theorem lt_of_leadingBit_mul {power other : Int}
    (less : leadingBit * (2 : ℚ) ^ power < leadingBit * 2 ^ other) : power < other := by
  rw [leadingBit_mul, leadingBit_mul, zpow_lt_zpow_iff_right₀ (by norm_num)] at less
  omega

/-- The scale of a quotient: there it has a mantissa of 53 bits, or it is the least one. -/
theorem scaleOf_eq {numerator denominator : Nat} (some : 0 < numerator)
    (positive : 0 < denominator) :
    ∃ scale : Int, scaleOf numerator denominator = max leastExponent scale ∧
      leadingBit * (2 : ℚ) ^ scale ≤ numerator / denominator ∧
      (numerator / denominator : ℚ) < leadingBit * 2 ^ (scale + 1) := by
  obtain ⟨low, high⟩ := quotient_bounds some positive
  simp only [scaleOf, twoTo_lt_iff _ _ _ positive]
  refine ⟨_, rfl, ?_⟩
  simp only [leadingBit_mul]
  split
  · rename_i short
    refine ⟨?_, ?_⟩
    · convert low using 2
      ring
    · convert short using 2
      ring
  · rename_i long
    refine ⟨not_lt.mp long, ?_⟩
    convert high using 2
    ring

/-- A quotient in the basin of a number is scaled like that number. Only below a power of two its
scale may be the next smaller one. -/
theorem scaleOf_of_covers {numerator denominator mantissa : Nat} {exponent : Int}
    (some : 0 < numerator) (positive : 0 < denominator)
    (canonical : Canonical mantissa exponent)
    (covers : (Basin.of mantissa exponent).Covers (2 ^ (exponent - 2)) (numerator / denominator)) :
    scaleOf numerator denominator = exponent ∨
      scaleOf numerator denominator = exponent - 1 ∧ mantissa = leadingBit ∧
        leastExponent < exponent ∧
        (numerator / denominator : ℚ) < leadingBit * 2 ^ exponent := by
  obtain ⟨scale, is, low, high⟩ := scaleOf_eq some positive
  obtain ⟨start, last⟩ := covers.bounds
  have whole := two_zpow_eq_quarters exponent
  have quarter : (0 : ℚ) < 2 ^ (exponent - 2) := by positivity
  have bound : (mantissa : ℚ) + 1 ≤ 2 * leadingBit := by exact_mod_cast canonical.bound
  have end_lt : (numerator / denominator : ℚ) < leadingBit * 2 ^ (exponent + 1) := by
    have below : ((Basin.of mantissa exponent).high : ℚ) < 8 * leadingBit := by
      simp only [Basin.of]
      push_cast
      linarith
    calc (numerator / denominator : ℚ)
        ≤ (Basin.of mantissa exponent).high * 2 ^ (exponent - 2) := last
      _ < 8 * leadingBit * 2 ^ (exponent - 2) := mul_lt_mul_of_pos_right below quarter
      _ = leadingBit * 2 ^ (exponent + 1) := by
          rw [zpow_add₀ two_ne_zero, whole]
          ring
  have upper : scale < exponent + 1 := lt_of_leadingBit_mul (low.trans_lt end_lt)
  rcases (canonical.least).eq_or_lt with least | above
  · left
    omega
  · rcases le_or_gt (leadingBit * (2 : ℚ) ^ exponent) (numerator / denominator) with reached | short
    · have lower : exponent < scale + 1 := lt_of_leadingBit_mul (reached.trans_lt high)
      left
      omega
    · have least : mantissa = leadingBit := by
        by_contra other
        have more : leadingBit + 1 ≤ mantissa := by
          have leading := canonical.leading above
          omega
        have far : 4 * (leadingBit : ℚ) < (Basin.of mantissa exponent).low := by
          simp only [Basin.of]
          rw [if_neg (fun both => other both.1)]
          norm_cast
          omega
        have beyond := mul_lt_mul_of_pos_right far quarter
        rw [whole] at short
        linarith
      have near : 2 * (leadingBit : ℚ) ≤ (Basin.of mantissa exponent).low := by
        simp only [Basin.of]
        rw [if_pos ⟨least, above⟩, least]
        norm_cast
      have reached : leadingBit * (2 : ℚ) ^ (exponent - 1) ≤ numerator / denominator := by
        calc leadingBit * (2 : ℚ) ^ (exponent - 1)
            = 2 * leadingBit * 2 ^ (exponent - 2) := by
              rw [show exponent - 1 = exponent - 2 + 1 by ring, zpow_add₀ two_ne_zero]
              ring
          _ ≤ (Basin.of mantissa exponent).low * 2 ^ (exponent - 2) :=
              mul_le_mul_of_nonneg_right near quarter.le
          _ ≤ numerator / denominator := start
      have lower : exponent - 1 < scale + 1 := lt_of_leadingBit_mul (reached.trans_lt high)
      have under : scale < exponent := lt_of_leadingBit_mul (low.trans_lt short)
      exact .inr ⟨by omega, least, above, short⟩

private theorem roundHalfEven_scaled {numerator denominator whole : Nat}
    (positive : 0 < denominator) (scale : Int)
    (low : (2 * whole - 1) * (2 : ℚ) ^ scale ≤ 2 * (numerator / denominator))
    (high : 2 * (numerator / denominator) ≤ (2 * whole + 1) * (2 : ℚ) ^ scale)
    (strict : whole % 2 = 1 → (2 * whole - 1) * (2 : ℚ) ^ scale < 2 * (numerator / denominator) ∧
      2 * (numerator / denominator) < (2 * whole + 1) * (2 : ℚ) ^ scale) :
    roundHalfEven (numerator * twoTo (-scale)) (denominator * twoTo scale) = whole := by
  have unit : (0 : ℚ) < twoTo (-scale) := by exact_mod_cast twoTo_pos _
  have divisor : (0 : ℚ) < denominator := by exact_mod_cast positive
  have factor : (0 : ℚ) < denominator * twoTo (-scale) := mul_pos divisor unit
  have scaled : 2 * (numerator / denominator : ℚ) * (denominator * twoTo (-scale)) =
      2 * (numerator * twoTo (-scale)) := by
    field_simp
  have power (number : ℚ) : number * 2 ^ scale * (denominator * twoTo (-scale)) =
      number * (denominator * twoTo scale) := by
    rw [← two_zpow scale]
    ring
  apply roundHalfEven_eq (Nat.mul_pos positive (twoTo_pos _))
  · have times := mul_le_mul_of_nonneg_right low factor.le
    rw [scaled, power] at times
    rw [← @Nat.cast_le ℚ]
    push_cast
    linarith
  · have times := mul_le_mul_of_nonneg_right high factor.le
    rw [scaled, power] at times
    rw [← @Nat.cast_le ℚ]
    push_cast
    linarith
  · intro odd
    have least := mul_lt_mul_of_pos_right (strict odd).1 factor
    have most := mul_lt_mul_of_pos_right (strict odd).2 factor
    rw [scaled, power] at least most
    rw [← @Nat.cast_lt ℚ, ← @Nat.cast_lt ℚ]
    push_cast
    constructor <;> linarith

private theorem Basin.le_of_low (mantissa : Nat) (exponent : Int) :
    4 * (mantissa : ℚ) - 2 ≤ (Basin.of mantissa exponent).low := by
  rw [sub_le_iff_le_add]
  simp only [Basin.of]
  split <;> norm_cast <;> omega

section Covers

variable {numerator denominator mantissa : Nat} {exponent : Int} (positive : 0 < denominator)
  (covers : (Basin.of mantissa exponent).Covers (2 ^ (exponent - 2)) (numerator / denominator))

include positive covers in
private theorem roundHalfEven_of_covers :
    roundHalfEven (numerator * twoTo (-exponent)) (denominator * twoTo exponent) = mantissa := by
  have whole := two_zpow_eq_quarters exponent
  have quarter : (0 : ℚ) < 2 ^ (exponent - 2) := by positivity
  have start := mul_le_mul_of_nonneg_right (Basin.le_of_low mantissa exponent) quarter.le
  have high : ((Basin.of mantissa exponent).high : ℚ) = 4 * mantissa + 2 := by simp [Basin.of]
  obtain ⟨low, last⟩ := covers.bounds
  rw [high] at last
  apply roundHalfEven_scaled positive
  · rw [whole]
    linarith
  · rw [whole]
    linarith
  · intro odd
    obtain ⟨less, more⟩ := covers.inside odd
    rw [high] at more
    rw [whole]
    constructor <;> linarith

include positive covers in
/-- Below a power of two a quotient is rounded on the finer grid there, up to that power. -/
theorem roundHalfEven_below (least : mantissa = leadingBit) (above : leastExponent < exponent)
    (short : (numerator / denominator : ℚ) < leadingBit * 2 ^ exponent) :
    roundHalfEven (numerator * twoTo (-(exponent - 1))) (denominator * twoTo (exponent - 1)) =
      2 * leadingBit := by
  have half : (2 : ℚ) ^ (exponent - 1) = 2 * 2 ^ (exponent - 2) := by
    rw [show exponent - 1 = 1 + (exponent - 2) by ring, zpow_one_add₀ two_ne_zero]
  have quarter : (0 : ℚ) < 2 ^ (exponent - 2) := by positivity
  have low : ((Basin.of mantissa exponent).low : ℚ) = 4 * leadingBit - 1 := by
    rw [eq_sub_iff_add_eq]
    simp only [Basin.of]
    rw [if_pos ⟨least, above⟩, least]
    norm_cast
  obtain ⟨start, _⟩ := covers.bounds
  rw [low] at start
  rw [two_zpow_eq_quarters] at short
  apply roundHalfEven_scaled positive
  · rw [half]
    push_cast
    linarith
  · rw [half]
    push_cast
    linarith
  · intro odd
    simp only [leadingBit] at odd
    omega

include positive covers in
/-- What lies in the basin of a number rounds to the pattern of that number. -/
theorem nearestBits_of_covers (canonical : Canonical mantissa exponent)
    (finite : (exponent - leastExponent).toNat * leadingBit + mantissa ≤ lastField * leadingBit) :
    nearestBits numerator denominator =
      (exponent - leastExponent).toNat * leadingBit + mantissa := by
  rw [nearestBits]
  split
  · rename_i zero
    have start := covers.bounds.1
    rw [zero, Nat.cast_zero, zero_div] at start
    have low : (Basin.of mantissa exponent).low = 0 := by
      have negative := nonpos_of_mul_nonpos_left start (by positivity)
      exact_mod_cast le_antisymm negative (Nat.cast_nonneg _)
    have none : mantissa = 0 := by
      simp only [Basin.of] at low
      split at low <;> omega
    have least : ¬ leastExponent < exponent := by
      intro above
      have leading := canonical.leading above
      simp only [none, leadingBit] at leading
      omega
    simp [none, Int.toNat_of_nonpos (show exponent - leastExponent ≤ 0 by omega)]
  · rename_i nonzero
    have some := Nat.pos_of_ne_zero nonzero
    rcases scaleOf_of_covers some positive canonical covers with
      scale | ⟨scale, least, above, short⟩
    · simp only [scale, roundHalfEven_of_covers positive covers]
      exact Nat.min_eq_left finite
    · simp only [scale, roundHalfEven_below positive covers least above short]
      have same : (exponent - 1 - leastExponent).toNat * leadingBit + 2 * leadingBit =
          (exponent - leastExponent).toNat * leadingBit + mantissa := by
        have next :
            (exponent - leastExponent).toNat = (exponent - 1 - leastExponent).toNat + 1 := by omega
        rw [next, least]
        ring
      rw [same]
      exact Nat.min_eq_left finite

end Covers

/-- The pattern of a finite number stands before that of infinity. -/
theorem Reading.pattern_le {bits mantissa : Nat} {negative : Bool} {exponent : Int}
    (read : ofBits bits = .finite negative mantissa exponent) :
    (exponent - leastExponent).toNat * leadingBit + mantissa ≤ lastField * leadingBit := by
  have fraction : bits % leadingBit < leadingBit := Nat.mod_lt _ (by decide)
  have fields : bits / leadingBit % (lastField + 1) ≤ lastField :=
    Nat.le_of_lt_succ (Nat.mod_lt _ (by decide))
  simp only [ofBits] at read
  split at read
  · split at read <;> cases read
  · rename_i finite
    split at read
    · cases read
      simp only [leadingBit, lastField] at *
      omega
    · cases read
      simp only [leadingBit, lastField] at *
      omega

/-- A finite number is the nearest one to all that lies in its basin. -/
theorem nearest_of_covers {number : Float} {negative : Bool} {numerator denominator mantissa : Nat}
    {exponent : Int} (read : Reading.ofFloat number = .finite negative mantissa exponent)
    (positive : 0 < denominator)
    (covers : (Basin.of mantissa exponent).Covers (2 ^ (exponent - 2)) (numerator / denominator)) :
    nearest negative numerator denominator = number := by
  obtain ⟨canonical, bits⟩ := Reading.ofBits_eq_finite number.toBits.toNat_lt read
  have finite := Reading.pattern_le read
  rw [nearest, nearestBits_of_covers positive covers canonical finite]
  simp only [← Nat.add_assoc, ← bits]
  rw [Nat.toUInt64, UInt64.ofNat_toNat]
  exact Float.ofBits_toBits number

def Reading.isFinite : Reading → Bool
  | finite _ _ _ => true
  | _ => false

def isFinite (number : Float) : Bool := (Reading.ofFloat number).isFinite

theorem exists_of_isFinite {number : Float} (finite : isFinite number = true) :
    ∃ negative mantissa exponent, Reading.ofFloat number = .finite negative mantissa exponent := by
  rw [isFinite] at finite
  cases read : Reading.ofFloat number with
  | finite negative mantissa exponent => exact ⟨_, _, _, rfl⟩
  | _ =>
    rw [read] at finite
    cases finite

section Shortest

variable {number : Float} {negative : Bool} {mantissa : Nat} {exponent : Int} (tie : Tie)
  (read : Reading.ofFloat number = .finite negative mantissa exponent)

include read in
/-- Only zero has the decimal zero. -/
theorem mantissa_of_shortest (zero : (shortest tie mantissa exponent).digits = 0) :
    mantissa = 0 := by
  obtain ⟨canonical, _⟩ := Reading.ofBits_eq_finite number.toBits.toNat_lt read
  have start := (@shortest_covers tie _ _ canonical).bounds.1
  rw [Decimal.value, zero, Nat.cast_zero, zero_mul] at start
  have low := nonpos_of_mul_nonpos_left start (by positivity)
  by_contra some
  have bound := Basin.le_of_low mantissa exponent
  have positive : (1 : ℚ) ≤ mantissa := by exact_mod_cast Nat.pos_of_ne_zero some
  linarith

include read in
/-- The shortest decimal of zero has the exponent zero. -/
theorem shortest_zero (zero : (shortest tie mantissa exponent).digits = 0) :
    (shortest tie mantissa exponent).exponent = 0 := by
  rw [shortest, if_pos (mantissa_of_shortest tie read zero)]

include read in
/-- The shortest decimal of a number reads back as that number. -/
theorem nearest_shortest :
    nearest negative (shortest tie mantissa exponent).value.num.toNat
      (shortest tie mantissa exponent).value.den = number := by
  obtain ⟨canonical, _⟩ := Reading.ofBits_eq_finite number.toBits.toNat_lt read
  have covers := @shortest_covers tie _ _ canonical
  have nonnegative : 0 ≤ (shortest tie mantissa exponent).value := by
    rw [Decimal.value]
    positivity
  generalize (shortest tie mantissa exponent).value = value at *
  have whole : ((value.num.toNat : Nat) : ℚ) = value.num := by
    exact_mod_cast Int.toNat_of_nonneg (Rat.num_nonneg.mpr nonnegative)
  apply nearest_of_covers read value.den_pos
  rwa [whole, Rat.num_div_den]

end Shortest

end Scriptlet.Number
