import Scriptlet.Proofs.Number.Layout
import Scriptlet.Proofs.Program.Rendering
import Scriptlet.Proofs.Surface.Spelling
import Scriptlet.Proofs.Token.Literals

/-! How a dump shows names, values and types. Scanned names and values that are finite are shown
as words or quoted texts, and different ones differently: what is shown begins with a letter, a
quote or a digit, and of the words only the truth values are keywords. -/
namespace Scriptlet

open Scriptlet.Lexeme (isWordStart isWordPart)

namespace Literal

/-- Not a number of infinite value. -/
def Finite : Literal → Prop
  | value (.double number) => ∀ negative, Number.Reading.ofFloat number ≠ .infinite negative
  | _ => True

instance : DecidablePred Finite
  | value (.double number) =>
    inferInstanceAs (Decidable (∀ negative, Number.Reading.ofFloat number ≠ .infinite negative))
  | identifier _ | value (.int _) | value (.string _) | value (.bool _) => instDecidableTrue

/-- How a dump shows a name or a value. -/
def shown : Literal → String
  | identifier name => name
  | value (.string text) => quoted text
  | value (.double number) => listedNumber.write number
  | value other => other.text

/-- The kind of literal that a shown text is taken for: its first character decides, and among
numbers whether there are only digits. -/
def kindOf (text : String) : Kind :=
  match text.toList with
  | [] => .endOfFile
  | first :: rest =>
    if first = '"' then .stringLiteral
    else if first.isDigit then
      if (first :: rest).all Char.isDigit then .intLiteral else .doubleLiteral
    else if Kind.ofKeyword? text = some .boolLiteral then .boolLiteral
    else .identifier

private theorem shown_int {number : Int64} (scanned : (value (.int number)).Scanned) :
    ((value (.int number)).shown).toList = Nat.toDigits 10 number.toInt.toNat := by
  obtain ⟨natural, same⟩ := Int.eq_ofNat_of_zero_le scanned
  have text : (value (.int number)).shown = toString natural := congrArg toString same
  rw [text, same, Nat.toString_eq_ofList_toDigits, String.toList_ofList, Int.toNat_natCast]

private theorem finite_of_scanned {number : Float} (scanned : (value (.double number)).Scanned)
    (finite : (value (.double number)).Finite) :
    ∃ mantissa exponent, Number.Reading.ofFloat number = .finite false mantissa exponent := by
  obtain ⟨digits, places, rfl⟩ := scanned
  rcases Number.Reading.ofFloat_ofDecimal digits places with infinite | found
  · exact absurd infinite (finite false)
  · exact found

private theorem shown_double {number : Float} (scanned : (value (.double number)).Scanned)
    (finite : (value (.double number)).Finite) :
    Number.Marked ((value (.double number)).shown).toList := by
  obtain ⟨mantissa, exponent, read⟩ := finite_of_scanned scanned finite
  rw [shown, Number.Layout.write, read]
  exact Number.Layout.decimal_marked rfl _

private theorem kindOf_shown {literal : Literal} (scanned : literal.Scanned)
    (finite : literal.Finite) : kindOf literal.shown = literal.kind := by
  rcases literal with name | number | number | text | truth
  · obtain ⟨⟨first, tail, spelled, leading, _⟩, free⟩ := scanned
    obtain ⟨noQuote, noDigit⟩ := Lexeme.word_class leading
    simp [kindOf, shown, spelled, noQuote, noDigit, free, kind]
  · have each := Number.isDigit_toDigits number.toInt.toNat
    obtain ⟨first, rest, same⟩ :=
      List.exists_cons_of_ne_nil (@Nat.toDigits_ne_nil number.toInt.toNat 10)
    rw [same] at each
    have leading := each first List.mem_cons_self
    simp only [kindOf, shown_int scanned, same]
    rw [if_neg (Lexeme.ne_quote_of_isDigit leading), if_pos leading,
      if_pos (List.all_eq_true.mpr each)]
    rfl
  · obtain ⟨⟨first, rest, same, leading⟩, ⟨mark, member, other⟩, _⟩ := shown_double scanned finite
    rw [same] at member
    simp only [kindOf, same]
    rw [if_neg (Lexeme.ne_quote_of_isDigit leading), if_pos leading, if_neg]
    · rfl
    · intro digits
      rw [List.all_eq_true.mp digits mark member] at other
      cases other
  · simp [kindOf, shown, quoted, kind, Value.kind]
  · cases truth <;> rfl

/-- Names and values are told apart by what is shown of them. -/
theorem shown_injective {literal other : Literal} (scanned : literal.Scanned)
    (finite : literal.Finite) (otherScanned : other.Scanned) (otherFinite : other.Finite)
    (same : literal.shown = other.shown) : literal = other := by
  have kinds : literal.kind = other.kind := by
    rw [← kindOf_shown scanned finite, same, kindOf_shown otherScanned otherFinite]
  rcases literal with name | number | number | text | truth <;>
    rcases other with second | second | second | second | second
  all_goals try cases kinds
  · exact congrArg identifier same
  · have texts := congrArg String.toList same
    rw [shown_int scanned, shown_int otherScanned] at texts
    have numbers : number.toInt.toNat = second.toInt.toNat := by
      rw [← @Nat.ofDigitChars_ten_toDigits number.toInt.toNat, texts,
        Nat.ofDigitChars_ten_toDigits]
    have integers : number.toInt = second.toInt := by
      have positive : 0 ≤ number.toInt := scanned
      have also : 0 ≤ second.toInt := otherScanned
      omega
    rw [Int64.toInt_inj.mp integers]
  · obtain ⟨_, _, read⟩ := finite_of_scanned scanned finite
    obtain ⟨_, _, also⟩ := finite_of_scanned otherScanned otherFinite
    rw [listedNumber.write_injective read also same]
  · have texts := congrArg String.toList same
    simp only [shown, quoted, String.toList_append, List.append_assoc] at texts
    have inside := List.append_cancel_right (List.append_cancel_left texts)
    rw [String.toList_inj.mp inside]
  · cases truth <;> cases second <;> simp_all [shown, Value.text, truthText]

end Literal

private theorem not_separator_of_isWordPart {character : Char}
    (part : isWordPart character = true) : character ∉ SExpr.separators := by
  intro member
  simp only [SExpr.separators, List.mem_cons, List.not_mem_nil, or_false] at member
  rcases member with rfl | rfl | rfl | rfl | rfl <;> cases part

private theorem isWordPart_of_isDigit {character : Char} (digit : character.isDigit = true) :
    isWordPart character = true := by
  simp [isWordPart, Char.isAlphanum, digit]

private theorem IsName.nonempty {name : String} (proper : IsName name) : name.toList ≠ [] := by
  obtain ⟨first, tail, spelled, _⟩ := proper.spelled
  rw [spelled]
  exact List.cons_ne_nil _ _

private theorem IsName.each {name : String} (proper : IsName name) :
    ∀ part ∈ name.toList, isWordPart part = true := by
  obtain ⟨first, tail, spelled, leading, each⟩ := proper.spelled
  rw [spelled]
  refine List.forall_mem_cons.mpr ⟨?_, each⟩
  simp only [isWordStart, isWordPart, Char.isAlphanum, Bool.or_eq_true] at leading ⊢
  exact leading.imp_left .inl

theorem IsName.legible {name : String} (proper : IsName name) : (SExpr.atom name).Legible :=
  .word proper.nonempty fun part member => not_separator_of_isWordPart (proper.each part member)

/-- What is shown of a name or a value ends where it should. -/
theorem Literal.legible {literal : Literal} (scanned : literal.Scanned) (finite : literal.Finite) :
    (SExpr.atom literal.shown).Legible := by
  rcases literal with name | number | number | text | truth
  · exact scanned.legible
  · apply SExpr.Legible.word
    · rw [shown_int scanned]
      exact Nat.toDigits_ne_nil
    · rw [shown_int scanned]
      intro digit member
      exact not_separator_of_isWordPart
        (isWordPart_of_isDigit (Number.isDigit_toDigits _ digit member))
  · obtain ⟨⟨first, rest, same, _⟩, _, each⟩ := shown_double scanned finite
    apply SExpr.Legible.word
    · rw [same]
      exact List.cons_ne_nil _ _
    · intro character member
      rcases each character member with digit | mark
      · exact not_separator_of_isWordPart (isWordPart_of_isDigit digit)
      · simp only [List.mem_cons, List.not_mem_nil, or_false] at mark
        rcases mark with rfl | rfl | rfl | rfl <;> decide
  · exact .quoted scanned
  · cases truth <;> exact .ofWord (by decide)

private theorem DeclaredType.toList_text (type : DeclaredType) :
    type.text.toList = type.name.toList ++ List.replicate type.stars '*' := by
  rw [text, String.toList_append, String.toList_ofList]

theorem DeclaredType.legible {type : DeclaredType} (proper : IsName type.name) :
    (SExpr.atom type.text).Legible := by
  apply SExpr.Legible.word
  · simp [toList_text, proper.nonempty]
  · rw [toList_text]
    intro character member
    rcases List.mem_append.mp member with part | star
    · exact not_separator_of_isWordPart (proper.each character part)
    · rw [List.eq_of_mem_replicate star]
      decide

theorem DeclaredType.text_injective {type other : DeclaredType} (proper : IsName type.name)
    (also : IsName other.name) (same : type.text = other.text) : type = other := by
  have texts := congrArg String.toList same
  rw [toList_text, toList_text] at texts
  have parts {name : String} (proper : IsName name) : ∀ part ∈ name.toList, ¬ part = '*' := by
    intro part member star
    have word := proper.each part member
    rw [star] at word
    cases word
  have stars (count : Nat) : ∀ first ∈ (List.replicate count '*').head?, first = '*' :=
    fun first member => List.eq_of_mem_replicate (List.mem_of_mem_head? member)
  obtain ⟨names, counts⟩ :=
    SExpr.append_inj_of_stop (parts proper) (parts also) (stars _) (stars _) texts
  have lengths : type.stars = other.stars := by simpa using congrArg List.length counts
  rw [show type = ⟨type.name, type.stars⟩ from rfl, String.toList_inj.mp names, lengths]

end Scriptlet
