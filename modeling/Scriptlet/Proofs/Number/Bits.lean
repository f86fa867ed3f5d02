import Mathlib
import Scriptlet.Number.Binary

/-! Bit patterns and what they stand for. A finite number is determined by its sign, mantissa
and exponent. Rounding a quotient gives a pattern up to that of infinity, and such a pattern is
kept as it is: it stands for a number, and that number has no sign. The laws of
`Float.toBits` that this rests on come with the whole of the library only. -/
namespace Scriptlet.Number

open Float.Model.UnpackedFloat (unpackMantissa unpackExponent isNaNBits)

/-- Mantissas and exponents of finite numbers: only at the least exponent may the leading bit
be absent. -/
structure Canonical (mantissa : Nat) (exponent : Int) : Prop where
  least : leastExponent ≤ exponent
  largest : exponent < leastExponent + lastField
  bound : mantissa < 2 * leadingBit
  leading : leastExponent < exponent → leadingBit ≤ mantissa

/-- A pattern is put together from its sign, its exponent field and its fraction. -/
theorem bits_eq {bits : Nat} (small : bits < 2 * signBit) :
    bits = (if signBit ≤ bits then signBit else 0) +
      bits / leadingBit % (lastField + 1) * leadingBit + bits % leadingBit := by
  split <;> simp only [signBit, leadingBit, lastField] at * <;> omega

theorem Reading.ofBits_eq_finite {bits mantissa : Nat} {negative : Bool} {exponent : Int}
    (small : bits < 2 * signBit) (read : ofBits bits = .finite negative mantissa exponent) :
    Canonical mantissa exponent ∧
      bits = (if negative then signBit else 0) +
        (exponent - leastExponent).toNat * leadingBit + mantissa := by
  have whole := bits_eq small
  have fraction : bits % leadingBit < leadingBit := Nat.mod_lt _ (by decide)
  have fields : bits / leadingBit % (lastField + 1) ≤ lastField :=
    Nat.le_of_lt_succ (Nat.mod_lt _ (by decide))
  simp only [ofBits] at read
  generalize bits / leadingBit % (lastField + 1) = field at *
  split at read
  · split at read <;> cases read
  · rename_i finite
    split at read
    · rename_i subnormal
      subst subnormal
      cases read
      refine ⟨⟨Int.le_refl _, by decide, by omega, ?_⟩, by simpa using whole⟩
      intro above
      exact absurd above (Int.lt_irrefl _)
    · rename_i normal
      cases read
      refine ⟨⟨by omega, by omega, by omega, fun _ => Nat.le_add_right ..⟩, ?_⟩
      have place :
          (leastExponent + ((field - 1 : Nat) : Int) - leastExponent).toNat + 1 = field := by
        omega
      rw [← place, Nat.add_mul, Nat.one_mul] at whole
      simpa [Nat.add_assoc] using whole

/-- Finite numbers differ in sign, mantissa or exponent. -/
theorem Reading.ofFloat_injective {number other : Float} {negative : Bool} {mantissa : Nat}
    {exponent : Int} (read : ofFloat number = .finite negative mantissa exponent)
    (same : ofFloat other = .finite negative mantissa exponent) : number = other := by
  have bits := (ofBits_eq_finite number.toBits.toNat_lt read).2
  have others := (ofBits_eq_finite other.toBits.toNat_lt same).2
  exact Float.toBits_inj.mp (UInt64.toNat.inj (bits.trans others.symm))

private theorem toNat_unpackMantissa (bits : BitVec 64) :
    (@unpackMantissa .binary64 bits).toNat = bits.toNat % leadingBit := by
  simp [unpackMantissa, leadingBit]

private theorem toNat_unpackExponent (bits : BitVec 64) :
    (@unpackExponent .binary64 bits).toNat = bits.toNat / leadingBit % (lastField + 1) := by
  simp [unpackExponent, leadingBit, lastField, Nat.shiftRight_eq_div_pow]

/-- Up to the pattern of infinity, none stands for what is not a number. -/
theorem isNaNBits_of_le {bits : BitVec 64} (small : bits.toNat ≤ lastField * leadingBit) :
    @isNaNBits .binary64 bits = false := by
  have fraction := toNat_unpackMantissa bits
  have field := toNat_unpackExponent bits
  rw [isNaNBits, decide_eq_false_iff_not]
  intro ⟨last, nonzero⟩
  apply nonzero
  apply BitVec.eq_of_toNat_eq
  rw [last] at field
  simp [leadingBit, lastField] at *
  omega

private theorem toNat_toBits_ofBits {bits : Nat} (small : bits ≤ lastField * leadingBit) :
    (Float.ofBits bits.toUInt64).toBits.toNat = bits := by
  have word : bits.toUInt64.toBitVec.toNat = bits := by
    simp only [leadingBit, lastField] at small
    exact Nat.mod_eq_of_lt (by omega)
  have kept := @Float.Model.UnpackedFloat.pack_unpack .binary64 bits.toUInt64.toBitVec (by decide)
  rw [isNaNBits_of_le (by rwa [word])] at kept
  exact (congrArg BitVec.toNat kept).trans word

/-- Patterns up to infinity stand for numbers, and these have no sign. -/
theorem Reading.ofBits_unsigned {bits : Nat} (small : bits ≤ lastField * leadingBit) :
    ofBits bits = .infinite false ∨
      ∃ mantissa exponent, ofBits bits = .finite false mantissa exponent := by
  have unsigned : decide (signBit ≤ bits) = false :=
    decide_eq_false (Nat.not_le.mpr (Nat.lt_of_le_of_lt small (by decide)))
  simp only [ofBits, unsigned]
  split
  · rename_i last
    rw [if_pos (by simp only [leadingBit, lastField] at *; omega)]
    exact .inl rfl
  · split
    · exact .inr ⟨_, _, rfl⟩
    · exact .inr ⟨_, _, rfl⟩

private theorem nearestBits_le (numerator denominator : Nat) :
    nearestBits numerator denominator ≤ lastField * leadingBit := by
  simp only [nearestBits]
  split
  · exact Nat.zero_le _
  · exact Nat.min_le_right ..

/-- A number without a sign is read back from the pattern it was rounded to. -/
theorem Reading.ofFloat_nearest (numerator denominator : Nat) :
    ofFloat (nearest false numerator denominator) =
      ofBits (nearestBits numerator denominator) := by
  rw [ofFloat, nearest, if_neg Bool.false_ne_true, Nat.zero_add,
    toNat_toBits_ofBits (nearestBits_le numerator denominator)]

/-- The number nearest to a decimal fraction is finite or infinite, and has no sign. -/
theorem Reading.ofFloat_ofDecimal (digits places : Nat) :
    ofFloat (ofDecimal digits places) = .infinite false ∨
      ∃ mantissa exponent, ofFloat (ofDecimal digits places) = .finite false mantissa exponent := by
  rw [ofDecimal, ofFloat_nearest]
  exact ofBits_unsigned (nearestBits_le digits (tenTo places))

end Scriptlet.Number
