import Scriptlet.Proofs.Number.Magnitude
import Scriptlet.Proofs.Token.Strings

/-! What a literal is listed with can be scanned. As long as it is neither cut off nor written with
an exponent, it scans to one token that stands for the same, and is listed the same. Otherwise it
does not: behind the beginning of a string, and behind the digits in front of an exponent, other
tokens are scanned, and what stands for infinity is a name. -/
namespace Scriptlet

open Scriptlet.Number (Reading shortest)

/-- Numbers that are listed without an exponent: zero, and those from `10 ^ -4` on and below
`10 ^ 16`. -/
def Number.IsMiddling (number : Float) : Prop :=
  ∃ magnitude ∈ (Reading.ofFloat number).magnitude?,
    magnitude = 0 ∨ 10 ^ (-4 : Int) ≤ magnitude ∧ magnitude < 10 ^ (16 : Int)

/-- Literals that are listed in full, and without an exponent. -/
def Literal.ListedPlainly : Literal → Prop
  | value (.string text) => text.length ≤ 20
  | value (.double number) => Number.IsMiddling number
  | _ => True

section Doubles

variable {number : Float} {mantissa : Nat} {exponent : Int}
  (read : Reading.ofFloat number = .finite false mantissa exponent)

include read in
private theorem positional_iff :
    listedNumber.positional (shortest .upward mantissa exponent).lead = true ↔
      Number.IsMiddling number := by
  have middling : Number.IsMiddling number ↔ (mantissa * 2 ^ exponent : ℚ) = 0 ∨
      10 ^ (-4 : Int) ≤ (mantissa * 2 ^ exponent : ℚ) ∧
        (mantissa * 2 ^ exponent : ℚ) < 10 ^ (16 : Int) := by
    simp [Number.IsMiddling, read, Reading.magnitude?]
  rw [middling]
  by_cases zero : mantissa = 0
  · subst zero
    simp [shortest, Number.Decimal.lead, listedNumber]
  · have some : (shortest .upward mantissa exponent).digits ≠ 0 :=
      fun none => zero (Number.mantissa_of_shortest .upward read none)
    have positive : (mantissa * 2 ^ exponent : ℚ) ≠ 0 := by positivity
    simp only [listedNumber, Bool.and_eq_true, decide_eq_true_eq, positive, false_or]
    rw [Number.Decimal.lead_lt_iff some, ← not_lt, Number.Decimal.lead_lt_iff some,
      Number.sharp_large.side read, Number.sharp_small.side read, not_lt]

include read in
private theorem write_eq : listedNumber.write number =
    listedNumber.decimal (shortest .upward mantissa exponent) := by
  simp [Number.Layout.write, read, Number.signed, listedNumber]

end Doubles

namespace Lexeme

private theorem spelled_name {name : String} (isName : IsName name) :
    ∃ extent, Spelled name.toList ⟨.identifier, some (.identifier name), extent⟩ := by
  obtain ⟨⟨first, tail, same, leading, each⟩, free⟩ := isName
  have whole : String.ofList (first :: tail) = name := by rw [← same, String.ofList_toList]
  have spelled := Spelled.word leading each
  rw [word, takeWhile_all each] at spelled
  simp only [whole, free] at spelled
  exact ⟨tail.length, same ▸ spelled⟩

private theorem spelled_bool (truth : Bool) :
    ∃ extent, Spelled (truthText truth).toList
      ⟨.boolLiteral, some (.value (.bool truth)), extent⟩ := by
  cases truth with
  | true =>
    exact ⟨3, @Spelled.word 't' ['r', 'u', 'e'] rfl (List.all_eq_true.mp rfl)⟩
  | false =>
    exact ⟨4, @Spelled.word 'f' ['a', 'l', 's', 'e'] rfl (List.all_eq_true.mp rfl)⟩

private theorem spelled_int {number : Int64} (nonnegative : 0 ≤ number.toInt) :
    ∃ extent, Spelled (toString number.toInt).toList
      ⟨.intLiteral, some (.value (.int number)), extent⟩ := by
  obtain ⟨amount, same⟩ := Int.eq_ofNat_of_zero_le nonnegative
  have written : (toString number.toInt).toList = Nat.toDigits 10 amount := by
    rw [same]
    change (toString amount).toList = _
    rw [Nat.toString_eq_ofList_toDigits, String.toList_ofList]
  obtain ⟨first, digits, parts⟩ := List.exists_cons_of_ne_nil (@Nat.toDigits_ne_nil amount 10)
  have each := Number.isDigit_toDigits amount
  have value : digitsValue (first :: digits) = amount := by
    rw [← parts]
    exact Nat.ofDigitChars_ten_toDigits
  have fits : amount ≤ largestInt := by
    have bound := number.toInt_lt
    simp only [largestInt]
    omega
  have back : Int64.ofNat amount = number := by
    rw [← Int64.toInt_inj, toInt_ofNat fits, same]
  rw [parts] at each
  obtain ⟨leading, others⟩ := List.forall_mem_cons.mp each
  have spelled := Spelled.int leading others (by rwa [value])
  rw [value, back] at spelled
  rw [written, parts]
  exact ⟨_, spelled⟩

/-- What is listed without an exponent reads back as the number. -/
theorem spelled_double {number : Float} {mantissa : Nat} {exponent : Int}
    (read : Reading.ofFloat number = .finite false mantissa exponent)
    (middling : Number.IsMiddling number) :
    ∃ extent, Spelled (listedNumber.write number).toList
      ⟨.doubleLiteral, some (.value (.double number)), extent⟩ := by
  have positional := (positional_iff read).mpr middling
  obtain ⟨canonical, _⟩ := Reading.ofBits_eq_finite number.toBits.toNat_lt read
  have covers := @Number.shortest_covers .upward _ _ canonical
  have text := write_eq read
  generalize shortest .upward mantissa exponent = decimal at *
  have amount := listedNumber.textValue_decimal decimal
  rw [Number.Layout.decimal_eq, if_pos positional] at text amount
  obtain ⟨whole, fraction, front, wholes, fractions, _, ⟨back, point⟩ | ⟨dropped, _⟩⟩ :=
    listedNumber.point_toList decimal.lead Nat.toDigits_ne_nil
      (Number.isDigit_toDigits decimal.digits)
  · obtain ⟨first, rest, rfl⟩ := List.exists_cons_of_ne_nil front
    obtain ⟨leading, others⟩ := List.forall_mem_cons.mp wholes
    have same : Number.ofDecimal (digitsValue (first :: rest ++ fraction)) fraction.length =
        number := by
      apply Number.nearest_of_covers read (Number.tenTo_pos _)
      convert covers using 1
      rw [← amount, point, Number.textValue_point wholes fractions, zpow_neg, zpow_natCast,
        div_eq_mul_inv, Number.tenTo]
      norm_cast
    have spelled := Spelled.double leading others fractions back
    rw [Lexeme.double, same] at spelled
    rw [text, point]
    exact ⟨_, spelled⟩
  · cases dropped

/-- A lexeme whose literal is listed plainly can be spelled by that listing. -/
theorem Spelled.listed {text : List Char} {lexeme : Lexeme} {literal : Literal}
    (spelled : Spelled text lexeme) (stands : lexeme.literal = some literal)
    (plain : literal.ListedPlainly) :
    ∃ extent, Spelled literal.listing.toList ⟨literal.kind, some literal, extent⟩ := by
  have scanned := spelled.scanned literal stands
  match literal with
  | .identifier name => exact spelled_name scanned
  | .value (.bool truth) => exact spelled_bool truth
  | .value (.int number) => exact spelled_int scanned
  | .value (.string text) =>
    have written : (Literal.value (.string text)).listing.toList =
        '"' :: (text.toList ++ ['"']) := by
      have short : ¬ 20 < text.length := Nat.not_lt.mpr plain
      simp [Literal.listing, preview, short, quoted]
    have again := spelled_raw (spelled.raw stands)
    rw [String.ofList_toList] at again
    rw [written]
    exact ⟨_, again⟩
  | .value (.double number) =>
    obtain ⟨digits, places, rfl⟩ := scanned
    rcases Reading.ofFloat_ofDecimal digits places with infinite | ⟨mantissa, exponent, read⟩
    · obtain ⟨magnitude, finite, _⟩ := plain
      rw [infinite] at finite
      cases finite
    · exact spelled_double read plain

private theorem goesOn_exponent {first : Char} (digit : first.isDigit = true)
    (tail rest : List Char) : goesOn (first :: tail) ('e' :: rest) = false := by
  simp [goesOn_number digit, beginsFraction]

/-- The digits in front of an exponent are a lexeme. -/
theorem spelled_mantissa {first : Char} {rest : List Char} (leading : first.isDigit = true)
    (each : ∀ digit ∈ rest, digit.isDigit = true) :
    ∃ lexeme, Spelled (first :: if rest = [] then [] else '.' :: rest) lexeme := by
  by_cases single : rest = []
  · have small : digitsValue [first] ≤ largestInt := by
      have last : first.toNat ≤ 57 := (Char.isDigit_iff_toNat.mp leading).2
      simp only [digitsValue, List.foldl_cons, List.foldl_nil, largestInt]
      omega
    rw [if_pos single]
    exact ⟨_, .int leading (by simp) small⟩
  · rw [if_neg single]
    exact ⟨_, @Spelled.double first [] rest leading (by simp) each single⟩

end Lexeme

namespace Token

open Scriptlet.Lexeme (Spelled goesOn)
open Scriptlet.Text (Position)

/-- The text behind the kind of a listed token scans to one token, which is listed the same. -/
def Relists (token : Token) : Prop :=
  ∃ listed again last, token.display = token.kind.name ++ ": " ++ listed ∧
    scan listed = .ok [again, last] ∧ last.kind = .endOfFile ∧ again.display = token.display

private theorem finalLayout_of_single {place : Position} {source : List Char} {last : Token}
    (scanned : scanFrom place source = .ok [last]) : FinalLayout source := by
  obtain ⟨pieces, final, arranged, rfl, same⟩ := exists_arranged scanned
  cases arranged with
  | final layout => exact layout
  | @piece first rest text layout spelled ends behind => cases rest <;> cases same

/-- Where something else than layout stands behind a lexeme, there is another token. -/
theorem scan_ne_single {text follow : List Char} {lexeme : Lexeme} (spelled : Spelled text lexeme)
    (ends : goesOn text follow = false) (more : ¬ FinalLayout follow) (again last : Token) :
    scan (String.ofList (text ++ follow)) ≠ .ok [again, last] := by
  intro scanned
  have stepped := @step_piece ⟨[], text, lexeme⟩ follow .start .nil spelled ends
  rw [scan, String.toList_ofList, scanFrom_step] at scanned
  simp only [List.nil_append] at stepped
  rw [stepped] at scanned
  simp only at scanned
  generalize (Position.start.advance []).advance text = place at scanned
  cases found : scanFrom place follow with
  | error error =>
    rw [found] at scanned
    cases scanned
  | ok others =>
    rw [found] at scanned
    cases scanned
    exact more (finalLayout_of_single found)

private theorem not_finalLayout {first : Char} {rest : List Char}
    (other : beginsLayout (first :: rest) = false) : ¬ FinalLayout (first :: rest) := by
  intro final
  have length := final.length
  rw [layoutLength_eq_zero other] at length
  cases length

/-- What a number that is not middling is listed with is a name, if it is one token at all: with
an exponent it is not. -/
theorem kind_of_listed_double {number : Float} (outside : ¬ Number.IsMiddling number)
    (unsigned : Reading.ofFloat number = .infinite false ∨
      ∃ mantissa exponent, Reading.ofFloat number = .finite false mantissa exponent)
    {again last : Token} (scanned : scan (listedNumber.write number) = .ok [again, last]) :
    again.kind = .identifier := by
  rcases unsigned with infinite | ⟨mantissa, exponent, read⟩
  · have listed : listedNumber.write number = "inf" := by
      simp [Number.Layout.write, infinite, listedNumber, Number.signed]
    have kinds : (scan "inf").toOption.map (·.map kind) = some [.identifier, .endOfFile] := by
      decide +kernel
    rw [← listed, scanned] at kinds
    exact (List.cons.inj (Option.some.inj kinds)).1
  · have exponential := mt (positional_iff read).mp outside
    have each := Number.isDigit_toDigits (shortest .upward mantissa exponent).digits
    obtain ⟨first, rest, parts⟩ := List.exists_cons_of_ne_nil
      (@Nat.toDigits_ne_nil (shortest .upward mantissa exponent).digits 10)
    rw [parts] at each
    obtain ⟨leading, others⟩ := List.forall_mem_cons.mp each
    have listed : listedNumber.write number = String.ofList
        ((first :: if rest = [] then [] else '.' :: rest) ++
          'e' :: listedNumber.exponentText (shortest .upward mantissa exponent).lead) := by
      rw [write_eq read, Number.Layout.decimal_eq, if_neg exponential, parts,
        ← listedNumber.scientific_toList, String.ofList_toList]
    obtain ⟨lexeme, spelled⟩ := Lexeme.spelled_mantissa leading others
    rw [listed] at scanned
    exact absurd scanned (scan_ne_single spelled (Lexeme.goesOn_exponent leading _ _)
      (not_finalLayout rfl) again last)

/-- A text that is cut off is listed by its beginning and a mark behind it. -/
theorem listed_string_ne_single {text : String} (raw : Lexeme.IsRaw text.toList)
    (long : 20 < text.length) (again last : Token) :
    scan (Literal.value (.string text)).listing ≠ .ok [again, last] := by
  have written : (Literal.value (.string text)).listing = String.ofList
      ('"' :: (text.toList.take 17 ++ ['"']) ++ " [...]".toList) := by
    apply String.toList_injective
    simp [Literal.listing, preview, long, quoted]
  have inside : '"' ∉ text.toList.take 17 := fun quote => raw.noQuote (List.mem_of_mem_take quote)
  have more : ¬ FinalLayout " [...]".toList := by
    intro final
    have length := final.length
    revert length
    decide
  rw [written]
  exact scan_ne_single (Lexeme.Spelled.string inside) rfl more again last

private theorem listed_of_display {token : Token} {literal : Literal} {listed : String}
    (stands : token.literal = some literal)
    (shown : token.display = token.kind.name ++ ": " ++ listed) : listed = literal.listing := by
  apply String.toList_injective
  have same := congrArg String.toList shown
  simp only [display, stands, String.toList_append] at same
  exact (List.append_cancel_left same).symm

private theorem name_prefix_display (token : Token) :
    token.kind.name.toList <+: token.display.toList := by
  unfold display
  cases token.literal with
  | none => exact List.prefix_rfl
  | some literal => simp [List.append_assoc]

private theorem relists_of_plain {token : Token} {literal : Literal} {text : List Char}
    {lexeme : Lexeme} (stands : token.literal = some literal) (kind : literal.kind = token.kind)
    (spelled : Spelled text lexeme) (carries : lexeme.literal = some literal)
    (plain : literal.ListedPlainly) : token.Relists := by
  obtain ⟨extent, relisted⟩ := spelled.listed carries plain
  have rescanned := scan_spelled relisted
  rw [String.ofList_toList] at rescanned
  refine ⟨literal.listing, _, _, ?_, rescanned, rfl, ?_⟩
  · simp [display, stands]
  · simp [display, stands, Lexeme.token, kind]

private theorem plain_of_relists {token : Token} {literal : Literal} {text : List Char}
    {lexeme : Lexeme} (stands : token.literal = some literal) (kind : literal.kind = token.kind)
    (spelled : Spelled text lexeme) (carries : lexeme.literal = some literal)
    (relists : token.Relists) : literal.ListedPlainly := by
  obtain ⟨listed, again, last, shown, rescanned, _, same⟩ := relists
  rw [listed_of_display stands shown] at rescanned
  match literal with
  | .identifier name => trivial
  | .value (.bool truth) => trivial
  | .value (.int number) => trivial
  | .value (.string text) =>
    by_contra cut
    exact listed_string_ne_single (spelled.raw carries) (Nat.lt_of_not_le cut) again last rescanned
  | .value (.double number) =>
    by_contra outside
    obtain ⟨digits, places, rfl⟩ := spelled.scanned _ carries
    have name := kind_of_listed_double outside (Reading.ofFloat_ofDecimal digits places) rescanned
    -- A name is listed as such, and not as a number.
    have theirs := again.name_prefix_display
    have ours := token.name_prefix_display
    rw [same, name] at theirs
    rw [← kind] at ours
    have nested : Kind.doubleLiteral.name.toList <+: Kind.identifier.name.toList :=
      List.prefix_of_prefix_length_le ours theirs (by decide)
    revert nested
    decide

/-- The tokens that list the same when their listing is scanned are those listed plainly. -/
theorem relists_iff {source : String} {tokens : List Token} {token : Token} {literal : Literal}
    (scanned : scan source = .ok tokens) (member : token ∈ tokens)
    (stands : token.literal = some literal) : token.Relists ↔ literal.ListedPlainly := by
  have kind : literal.kind = token.kind :=
    (wellFormed_of_scan scanned token member).carriesLiteral.2 literal stands
  obtain ⟨pieces, final, arranged, rfl, rfl⟩ := arranged_of_scan scanned
  obtain ⟨text, lexeme, spelled, carries⟩ :
      ∃ text lexeme, Spelled text lexeme ∧ lexeme.literal = some literal := by
    rcases exists_lexeme arranged member with ⟨_, text, _, lexeme, _, spelled, rfl⟩ | rfl
    · exact ⟨text, lexeme, spelled, stands⟩
    · cases stands
  constructor
  · exact plain_of_relists stands kind spelled carries
  · exact relists_of_plain stands kind spelled carries

/-- A number with as many digits as are listed, and its listing. -/
theorem quarters_relists :
    scan "0012.250" = .ok [⟨.doubleLiteral, some (.value (.double 12.25)), 1, ⟨0, 8⟩⟩,
      ⟨.endOfFile, none, 1, ⟨8, 0⟩⟩] ∧
    (⟨.doubleLiteral, some (.value (.double 12.25)), 1, ⟨0, 8⟩⟩ : Token).Relists := by
  have scanned : scan "0012.250" =
      .ok [⟨.doubleLiteral, some (.value (.double 12.25)), 1, ⟨0, 8⟩⟩,
        ⟨.endOfFile, none, 1, ⟨8, 0⟩⟩] := by
    decide +kernel
  have read : Reading.ofFloat 12.25 = .finite false 6896136929411072 (-49) := by decide +kernel
  refine ⟨scanned, (relists_iff scanned List.mem_cons_self rfl).mpr ?_⟩
  refine ⟨6896136929411072 * 2 ^ (-49 : Int), ?_, .inr ?_⟩
  · simp [read, Reading.magnitude?]
  · norm_num

/-- From `10 ^ 16` on the listing of a number scans to an int and a name. -/
theorem sixteen_zeros_unstable :
    scan "10000000000000000.0" =
      .ok [⟨.doubleLiteral, some (.value (.double 1e16)), 1, ⟨0, 19⟩⟩,
        ⟨.endOfFile, none, 1, ⟨19, 0⟩⟩] ∧
    (⟨.doubleLiteral, some (.value (.double 1e16)), 1, ⟨0, 19⟩⟩ : Token).display =
      "DoubleLit: 1e16" ∧
    scan "1e16" = .ok [⟨.intLiteral, some (.value (.int 1)), 1, ⟨0, 1⟩⟩,
      ⟨.identifier, some (.identifier "e16"), 1, ⟨1, 3⟩⟩, ⟨.endOfFile, none, 1, ⟨4, 0⟩⟩] ∧
    ¬ (⟨.doubleLiteral, some (.value (.double 1e16)), 1, ⟨0, 19⟩⟩ : Token).Relists := by
  have scanned : scan "1e16" = .ok [⟨.intLiteral, some (.value (.int 1)), 1, ⟨0, 1⟩⟩,
      ⟨.identifier, some (.identifier "e16"), 1, ⟨1, 3⟩⟩, ⟨.endOfFile, none, 1, ⟨4, 0⟩⟩] := by
    decide +kernel
  refine ⟨by decide +kernel, by decide +kernel, scanned, ?_⟩
  rintro ⟨listed, again, last, shown, rescanned, _⟩
  have written : (Literal.value (.double 1e16)).listing = "1e16" := by decide +kernel
  rw [listed_of_display rfl shown, written, scanned] at rescanned
  cases rescanned

end Token

end Scriptlet
