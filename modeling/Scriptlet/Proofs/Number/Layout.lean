import Scriptlet.Number.Layout
import Scriptlet.Proofs.Number.Shortest

/-! Written numbers can be read. In every layout, the text of a decimal stands for that decimal,
so that finite numbers without a sign are told apart by their texts. -/
namespace Scriptlet.Number

/-- The exponent that stands behind the mark of an exponent, with its sign if it has one. -/
def exponentValue : List Char → Int
  | '-' :: digits => -(Nat.ofDigitChars 10 digits 0 : Nat)
  | '+' :: digits => (Nat.ofDigitChars 10 digits 0 : Nat)
  | digits => (Nat.ofDigitChars 10 digits 0 : Nat)

/-- What a text without a sign stands for: digits with or without a point and an exponent. -/
def textValue (text : List Char) : ℚ :=
  let mantissa := text.takeWhile (· ≠ 'e')
  let exponent := (text.dropWhile (· ≠ 'e')).tail
  let whole := mantissa.takeWhile (· ≠ '.')
  let fraction := (mantissa.dropWhile (· ≠ '.')).tail
  Nat.ofDigitChars 10 (whole ++ fraction) 0 * 10 ^ (exponentValue exponent - fraction.length)

section Marks

variable {mark : Char} {front back : List Char}

private theorem pass_of_not_mem (absent : mark ∉ front) :
    ∀ character ∈ front, decide (character ≠ mark) = true := by
  intro character member
  exact decide_eq_true fun same => absent (same ▸ member)

private theorem takeWhile_ne_mark (absent : mark ∉ front) :
    (front ++ mark :: back).takeWhile (· ≠ mark) = front := by
  rw [List.takeWhile_append_of_pos (pass_of_not_mem absent)]
  simp

private theorem dropWhile_ne_mark (absent : mark ∉ front) :
    (front ++ mark :: back).dropWhile (· ≠ mark) = mark :: back := by
  rw [List.dropWhile_append_of_pos (pass_of_not_mem absent)]
  simp

private theorem takeWhile_ne_self (absent : mark ∉ front) : front.takeWhile (· ≠ mark) = front :=
  List.takeWhile_eq_self_iff.mpr (pass_of_not_mem absent)

private theorem dropWhile_ne_self (absent : mark ∉ front) : front.dropWhile (· ≠ mark) = [] :=
  List.dropWhile_eq_nil_iff.mpr (pass_of_not_mem absent)

end Marks

variable {whole fraction mantissa exponent digits : List Char}

theorem not_mem_of_isDigit {mark : Char} (other : mark.isDigit = false)
    (each : ∀ digit ∈ digits, digit.isDigit = true) : mark ∉ digits := by
  intro member
  rw [each mark member] at other
  cases other

theorem textValue_exponent (absent : 'e' ∉ mantissa) :
    textValue (mantissa ++ 'e' :: exponent) =
      textValue mantissa * 10 ^ exponentValue exponent := by
  simp only [textValue, takeWhile_ne_mark absent, dropWhile_ne_mark absent,
    takeWhile_ne_self absent, dropWhile_ne_self absent, List.tail_cons, List.tail_nil]
  rw [mul_assoc, ← zpow_add₀ (by norm_num)]
  congr 2
  simp [exponentValue]
  ring

theorem textValue_point (wholes : ∀ digit ∈ whole, digit.isDigit = true)
    (fractions : ∀ digit ∈ fraction, digit.isDigit = true) :
    textValue (whole ++ '.' :: fraction) =
      Nat.ofDigitChars 10 (whole ++ fraction) 0 * 10 ^ (-(fraction.length : Int)) := by
  have exponent : 'e' ∉ whole ++ '.' :: fraction := by
    have front : 'e' ∉ whole := not_mem_of_isDigit rfl wholes
    have back : 'e' ∉ fraction := not_mem_of_isDigit rfl fractions
    simp [front, back]
  have point : '.' ∉ whole := not_mem_of_isDigit rfl wholes
  simp only [textValue, takeWhile_ne_self exponent, dropWhile_ne_self exponent,
    takeWhile_ne_mark point, dropWhile_ne_mark point, List.tail_cons, List.tail_nil]
  simp [exponentValue]

theorem textValue_whole (wholes : ∀ digit ∈ whole, digit.isDigit = true) :
    textValue whole = Nat.ofDigitChars 10 whole 0 := by
  have exponent : 'e' ∉ whole := not_mem_of_isDigit rfl wholes
  have point : '.' ∉ whole := not_mem_of_isDigit rfl wholes
  simp only [textValue, takeWhile_ne_self exponent, dropWhile_ne_self exponent,
    takeWhile_ne_self point, dropWhile_ne_self point, List.tail_nil]
  simp [exponentValue]

theorem isDigit_toDigits (number : Nat) :
    ∀ digit ∈ Nat.toDigits 10 number, digit.isDigit = true :=
  fun _ => Nat.isDigit_of_mem_toDigits (by decide) (by decide)

theorem isDigit_zeros (count : Nat) : ∀ digit ∈ List.replicate count '0', digit.isDigit = true := by
  intro digit member
  rw [List.eq_of_mem_replicate member]
  rfl

/-- Digits with a point in their place, or without one: what stands in front of the point and
behind it makes up the number, and no point is the last character. -/
theorem Layout.point_toList (layout : Layout) (lead : Int) (some : digits ≠ [])
    (each : ∀ digit ∈ digits, digit.isDigit = true) :
    ∃ whole fraction : List Char, whole ≠ [] ∧ (∀ digit ∈ whole, digit.isDigit = true) ∧
      (∀ digit ∈ fraction, digit.isDigit = true) ∧
      (Nat.ofDigitChars 10 (whole ++ fraction) 0 : ℚ) * 10 ^ (-(fraction.length : Int)) =
        Nat.ofDigitChars 10 digits 0 * 10 ^ (lead + 1 - digits.length) ∧
      (fraction ≠ [] ∧ (layout.point digits lead).toList = whole ++ '.' :: fraction ∨
        layout.pointKept = false ∧ fraction = [] ∧ (layout.point digits lead).toList = whole) := by
  rw [Layout.point]
  split
  · rename_i negative
    refine ⟨['0'], List.replicate (-lead - 1).toNat '0' ++ digits, by simp, isDigit_zeros 1,
      List.forall_mem_append.mpr ⟨isDigit_zeros _, each⟩, ?_,
      .inl ⟨by simp [some], by simp [zeros]⟩⟩
    rw [Nat.ofDigitChars_append, Nat.ofDigitChars_append, Nat.ofDigitChars_replicate_zero]
    congr 2
    simp
    omega
  · simp only
    split
    · have places : lead + 1 - digits.length = (lead.toNat + 1 - digits.length : Nat) := by omega
      have all := List.forall_mem_append.mpr
        ⟨each, isDigit_zeros (lead.toNat + 1 - digits.length)⟩
      have value : (Nat.ofDigitChars 10
          (digits ++ List.replicate (lead.toNat + 1 - digits.length) '0') 0 : ℚ) =
            Nat.ofDigitChars 10 digits 0 * 10 ^ (lead + 1 - digits.length) := by
        rw [Nat.ofDigitChars_append, Nat.ofDigitChars_replicate_zero, places, zpow_natCast]
        push_cast
        ring
      split
      · refine ⟨_, ['0'], by simp [some], all, isDigit_zeros 1, ?_, .inl ⟨by simp, by simp [zeros]⟩⟩
        rw [← value, Nat.ofDigitChars_append (l := digits ++ _)]
        simp [Nat.ofDigitChars_cons]
        ring
      · rename_i dropped
        refine ⟨_, [], by simp [some], all, by simp, by simpa using value, .inr ?_⟩
        simpa [zeros] using dropped
    · rename_i long
      refine ⟨digits.take (lead.toNat + 1), digits.drop (lead.toNat + 1), by simp [some],
        fun digit member => each digit (List.mem_of_mem_take member),
        fun digit member => each digit (List.mem_of_mem_drop member), ?_, .inl ⟨?_, by simp⟩⟩
      · rw [List.take_append_drop, List.length_drop]
        congr 2
        omega
      · intro none
        exact long (List.drop_eq_nil_iff.mp none)

/-- The sign and the digits of an exponent. -/
def Layout.exponentText (layout : Layout) (lead : Int) : List Char :=
  (if lead < 0 then ['-'] else if layout.plusSign then ['+'] else []) ++
    Nat.toDigits 10 lead.natAbs

private theorem exponentValue_toDigits (number : Nat) :
    exponentValue (Nat.toDigits 10 number) = number := by
  have minus : '-' ∉ Nat.toDigits 10 number := not_mem_of_isDigit rfl (isDigit_toDigits number)
  have plus : '+' ∉ Nat.toDigits 10 number := not_mem_of_isDigit rfl (isDigit_toDigits number)
  rw [exponentValue, Nat.ofDigitChars_ten_toDigits]
  · intro digits same
    exact minus (same ▸ List.mem_cons_self)
  · intro digits same
    exact plus (same ▸ List.mem_cons_self)

private theorem Layout.exponentValue_text (layout : Layout) (lead : Int) :
    exponentValue (layout.exponentText lead) = lead := by
  rw [exponentText]
  split
  · rw [List.singleton_append, exponentValue, Nat.ofDigitChars_ten_toDigits]
    omega
  · split
    · rw [List.singleton_append, exponentValue, Nat.ofDigitChars_ten_toDigits]
      omega
    · rw [List.nil_append, exponentValue_toDigits]
      omega

theorem Layout.scientific_toList (layout : Layout) (first : Char) (rest : List Char) (lead : Int) :
    (layout.scientific (first :: rest) lead).toList =
      (first :: if rest = [] then [] else '.' :: rest) ++ 'e' :: layout.exponentText lead := by
  have sign : (if lead < 0 then "-" else if layout.plusSign then "+" else "").toList =
      if lead < 0 then ['-'] else if layout.plusSign then ['+'] else [] := by
    split
    · rfl
    · split <;> rfl
  cases rest <;> simp [scientific, exponentText, Nat.repr_eq_ofList_toDigits, sign]

private theorem Layout.textValue_point (layout : Layout) (lead : Int) (some : digits ≠ [])
    (each : ∀ digit ∈ digits, digit.isDigit = true) :
    textValue (layout.point digits lead).toList =
      Nat.ofDigitChars 10 digits 0 * 10 ^ (lead + 1 - digits.length) := by
  obtain ⟨whole, fraction, _, wholes, fractions, value, ⟨_, text⟩ | ⟨_, rfl, text⟩⟩ :=
    layout.point_toList lead some each
  · rw [text, Number.textValue_point wholes fractions, value]
  · rw [text, textValue_whole wholes, ← value]
    simp

private theorem Layout.textValue_scientific (layout : Layout) (lead : Int) (some : digits ≠ [])
    (each : ∀ digit ∈ digits, digit.isDigit = true) :
    textValue (layout.scientific digits lead).toList =
      Nat.ofDigitChars 10 digits 0 * 10 ^ (lead + 1 - digits.length) := by
  obtain ⟨first, rest, rfl⟩ := List.exists_cons_of_ne_nil some
  have absent : 'e' ∉ first :: rest := not_mem_of_isDigit rfl each
  obtain ⟨head, tail⟩ := List.forall_mem_cons.mp each
  rw [layout.scientific_toList]
  split
  · rename_i single
    subst single
    rw [textValue_exponent absent, textValue_whole each, layout.exponentValue_text]
    simp
  · have marked : 'e' ∉ [first] ++ '.' :: rest := by simpa using absent
    refine (textValue_exponent marked).trans ?_
    rw [Number.textValue_point (by simpa using head) tail, layout.exponentValue_text, mul_assoc,
      ← zpow_add₀ (by norm_num)]
    congr 2
    simp
    ring

/-- A written decimal stands for itself. -/
theorem Layout.textValue_decimal (layout : Layout) (decimal : Decimal) :
    textValue (layout.decimal decimal).toList = decimal.value := by
  have some := @Nat.toDigits_ne_nil decimal.digits 10
  have each := isDigit_toDigits decimal.digits
  have length := List.length_pos_iff.mpr some
  have lead : decimal.exponent + ((Nat.toDigits 10 decimal.digits).length - 1 : Nat) + 1 -
      (Nat.toDigits 10 decimal.digits).length = decimal.exponent := by omega
  rw [Layout.decimal, Decimal.value]
  split
  · rw [layout.textValue_point _ some each, lead, Nat.ofDigitChars_ten_toDigits]
  · rw [layout.textValue_scientific _ some each, lead, Nat.ofDigitChars_ten_toDigits]

/-- Finite numbers without a sign are told apart by their texts. -/
theorem Layout.write_injective (layout : Layout) {number other : Float} {mantissa unit : Nat}
    {exponent power : Int} (read : Reading.ofFloat number = .finite false mantissa exponent)
    (also : Reading.ofFloat other = .finite false unit power)
    (same : layout.write number = layout.write other) : number = other := by
  have canonical := (Reading.ofBits_eq_finite number.toBits.toNat_lt read).1
  have others := (Reading.ofBits_eq_finite other.toBits.toNat_lt also).1
  simp only [write, read, also, signed, Bool.false_eq_true, if_false] at same
  have values := layout.textValue_decimal (shortest layout.tie mantissa exponent)
  rw [same, layout.textValue_decimal] at values
  obtain ⟨rfl, rfl⟩ := shortest_injective canonical others values.symm
  exact Reading.ofFloat_injective read also

/-- Texts of numbers that are not taken for whole ones: a digit, and behind it digits and marks,
and at least one mark. -/
structure Marked (text : List Char) : Prop where
  head : ∃ first rest, text = first :: rest ∧ first.isDigit = true
  mark : ∃ character ∈ text, character.isDigit = false
  each : ∀ character ∈ text, character.isDigit = true ∨ character ∈ ['.', 'e', '-', '+']

private theorem Layout.exponentText_each (layout : Layout) (lead : Int) :
    ∀ character ∈ layout.exponentText lead,
      character.isDigit = true ∨ character ∈ ['.', 'e', '-', '+'] := by
  intro character member
  rw [exponentText] at member
  rcases List.mem_append.mp member with sign | digit
  · right
    split at sign
    · simp_all
    · split at sign <;> simp_all
  · left
    exact isDigit_toDigits _ character digit

theorem Layout.decimal_marked {layout : Layout} (kept : layout.pointKept = true)
    (decimal : Decimal) : Marked (layout.decimal decimal).toList := by
  have some := @Nat.toDigits_ne_nil decimal.digits 10
  have each := isDigit_toDigits decimal.digits
  rw [Layout.decimal]
  split
  · obtain ⟨whole, fraction, front, wholes, fractions, _, ⟨_, text⟩ | ⟨dropped, _⟩⟩ :=
      layout.point_toList _ some each
    · obtain ⟨first, rest, rfl⟩ := List.exists_cons_of_ne_nil front
      rw [text]
      refine ⟨⟨first, _, rfl, wholes first List.mem_cons_self⟩, ⟨'.', by simp, rfl⟩, ?_⟩
      grind
    · rw [kept] at dropped
      cases dropped
  · generalize Nat.toDigits 10 decimal.digits = digits at *
    obtain ⟨first, rest, rfl⟩ := List.exists_cons_of_ne_nil some
    have exponents :=
      layout.exponentText_each (decimal.exponent + ((first :: rest).length - 1 : Nat))
    rw [layout.scientific_toList]
    refine ⟨⟨first, _, rfl, each first List.mem_cons_self⟩, ⟨'e', by simp, rfl⟩, ?_⟩
    grind

end Scriptlet.Number
