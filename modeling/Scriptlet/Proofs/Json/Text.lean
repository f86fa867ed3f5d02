import Scriptlet.Json
import Scriptlet.Proofs.Number.Layout
import Scriptlet.Proofs.Number.Rounding

/-! The grammar of JSON texts: which texts a value has, with blanks anywhere between their parts
and all escapes and forms of numbers. The indented text of a value is one of them. -/
namespace Scriptlet

namespace Json

def isBlank (character : Char) : Bool := [' ', '\t', '\n', '\r'].contains character

/-- Blanks, tabs and line ends. -/
abbrev Blank (text : List Char) : Prop := ∀ character ∈ text, isBlank character = true

/-- One digit or more. -/
structure Digits (text : List Char) : Prop where
  some : text ≠ []
  each : ∀ digit ∈ text, digit.isDigit = true

/-- Digits behind a sign, or without one. -/
inductive SignedDigits : List Char → Prop where
  | plain {digits : List Char} (proper : Digits digits) : SignedDigits digits
  | signed {sign : Char} {digits : List Char} (isSign : sign = '+' ∨ sign = '-')
      (proper : Digits digits) : SignedDigits (sign :: digits)

/-- The parts of a written number: its sign, the digits before the point and those behind it, and
an exponent with its mark. -/
structure Numeral where
  negative : Bool
  whole : List Char
  fraction : Option (List Char)
  exponent : Option (Char × List Char)

namespace Numeral

/-- No digits stand behind a leading zero, and none are missing. -/
structure WellFormed (numeral : Numeral) : Prop where
  whole : Digits numeral.whole
  leading : numeral.whole.head? = some '0' → numeral.whole = ['0']
  fraction : ∀ digits ∈ numeral.fraction, Digits digits
  exponent : ∀ entry ∈ numeral.exponent, (entry.1 = 'e' ∨ entry.1 = 'E') ∧ SignedDigits entry.2

def signText (numeral : Numeral) : List Char := if numeral.negative then ['-'] else []

def fractionText (numeral : Numeral) : List Char :=
  match numeral.fraction with
  | some digits => '.' :: digits
  | none => []

def exponentText (numeral : Numeral) : List Char :=
  match numeral.exponent with
  | some (mark, digits) => mark :: digits
  | none => []

/-- The text behind the sign. -/
def unsigned (numeral : Numeral) : List Char :=
  numeral.whole ++ numeral.fractionText ++ numeral.exponentText

def text (numeral : Numeral) : List Char := numeral.signText ++ numeral.unsigned

/-- What a numeral stands for, apart from its sign. -/
def amount (numeral : Numeral) : ℚ :=
  let fraction := numeral.fraction.getD []
  let exponent := (numeral.exponent.map fun entry => Number.exponentValue entry.2).getD 0
  Nat.ofDigitChars 10 (numeral.whole ++ fraction) 0 * 10 ^ (exponent - fraction.length)

/-- Without a point and an exponent a numeral is an integer, and otherwise the nearest number in
double precision. -/
def value (numeral : Numeral) : Json :=
  match numeral.fraction, numeral.exponent with
  | none, none =>
    let digits : Int := Nat.ofDigitChars 10 numeral.whole 0
    .int (if numeral.negative then -digits else digits)
  | _, _ =>
    .double (Number.nearest numeral.negative numeral.amount.num.toNat numeral.amount.den)

end Numeral

/-- The marks of escapes, and what they stand for behind a backslash. -/
def escapes : List (Char × Char) :=
  [('"', '"'), ('\\', '\\'), ('/', '/'), ('b', '\x08'), ('f', '\x0c'), ('n', '\n'), ('r', '\r'),
    ('t', '\t')]

/-- Quotes, backslashes and control characters cannot stand for themselves. -/
def isPlain (character : Char) : Bool :=
  character ≠ '"' && character ≠ '\\' && 0x20 ≤ character.toNat

def hexValue? (digit : Char) : Option Nat :=
  if digit.isDigit then some (digit.toNat - '0'.toNat)
  else if 'a' ≤ digit && digit ≤ 'f' then some (digit.toNat - 'a'.toNat + 10)
  else if 'A' ≤ digit && digit ≤ 'F' then some (digit.toNat - 'A'.toNat + 10)
  else none

/-- The code that four digits to the base sixteen give. -/
def code? (first second third fourth : Char) : Option Nat := do
  return ((← hexValue? first) * 16 + (← hexValue? second)) * 256 +
    ((← hexValue? third) * 16 + (← hexValue? fourth))

/-- Texts in which characters are spelled: each stands for itself, or has an escape with a mark of
its own or with its code. A code of more than four digits is split in two. -/
inductive Spelled : List Char → List Char → Prop where
  | nil : Spelled [] []
  | plain {character : Char} {characters text : List Char} (plain : isPlain character = true)
      (rest : Spelled characters text) : Spelled (character :: characters) (character :: text)
  | escaped {character mark : Char} {characters text : List Char}
      (entry : (mark, character) ∈ escapes) (rest : Spelled characters text) :
      Spelled (character :: characters) ('\\' :: mark :: text)
  | coded {character a b c d : Char} {characters text : List Char}
      (code : code? a b c d = some character.toNat) (rest : Spelled characters text) :
      Spelled (character :: characters) ('\\' :: 'u' :: a :: b :: c :: d :: text)
  | split {character a b c d e f g h : Char} {characters text : List Char} {offset : Nat}
      (place : character.toNat = 0x10000 + offset)
      (high : code? a b c d = some (0xd800 + offset / 0x400))
      (low : code? e f g h = some (0xdc00 + offset % 0x400)) (rest : Spelled characters text) :
      Spelled (character :: characters)
        ('\\' :: 'u' :: a :: b :: c :: d :: '\\' :: 'u' :: e :: f :: g :: h :: text)

inductive Quoted : String → List Char → Prop where
  | of {text : String} {body : List Char} (spelled : Spelled text.toList body) :
      Quoted text ('"' :: (body ++ ['"']))

section

variable {α : Type} (item : α → List Char → Prop)

/-- Texts of one item or more, with commas between them. -/
inductive Listed : List α → List Char → Prop where
  | last {content : α} {text : List Char} (only : item content text) : Listed [content] text
  | more {content : α} {contents : List α} {text others : List Char} (first : item content text)
      (rest : Listed contents others) : Listed (content :: contents) (text ++ ',' :: others)

/-- Texts of any number of items between two marks. -/
inductive Enclosed (opening closing : Char) : List α → List Char → Prop where
  | empty {gap : List Char} (blank : Blank gap) :
      Enclosed opening closing [] (opening :: (gap ++ [closing]))
  | filled {contents : List α} {body : List Char} (listed : Listed item contents body) :
      Enclosed opening closing contents (opening :: (body ++ [closing]))

end

def words : List (List Char × Json) :=
  [(['n', 'u', 'l', 'l'], .null), (['t', 'r', 'u', 'e'], .bool true),
    (['f', 'a', 'l', 's', 'e'], .bool false)]

mutual

/-- The texts of a value. No two fields of an object have the same name. -/
inductive Text : Json → List Char → Prop where
  | word {value : Json} {text : List Char} (entry : (text, value) ∈ words) : Text value text
  | number {numeral : Numeral} (proper : numeral.WellFormed) : Text numeral.value numeral.text
  | string {text : String} {written : List Char} (quoted : Quoted text written) :
      Text (.string text) written
  | array {items : List Json} {text : List Char} (each : Enclosed Element '[' ']' items text) :
      Text (.array items) text
  | object {fields : List (String × Json)} {text : List Char}
      (each : Enclosed Member '\x7b' '\x7d' fields text)
      (distinct : (fields.map Prod.fst).Nodup) : Text (.object fields) text

/-- The texts of a value with blanks around them. -/
inductive Element : Json → List Char → Prop where
  | of {value : Json} {before text after : List Char} (front : Blank before)
      (inner : Text value text) (back : Blank after) : Element value (before ++ text ++ after)

/-- The texts of a field: its name and its value, with a colon between them. -/
inductive Member : String × Json → List Char → Prop where
  | of {key : String} {value : Json} {before name after text : List Char} (front : Blank before)
      (named : Quoted key name) (back : Blank after) (given : Element value text) :
      Member (key, value) (before ++ name ++ after ++ ':' :: text)

end

private theorem hexValue?_hexDigit :
    ∀ digit < 16, hexValue? (hexDigit digit) = some digit := by decide

theorem Spelled.escapeChar (character : Char) {characters text : List Char}
    (rest : Spelled characters text) :
    Spelled (character :: characters) (escapeChar character ++ text) := by
  rw [Json.escapeChar]
  iterate 7
    split
    · subst_vars
      exact .escaped (by decide) rest
  split
  · rename_i control
    refine .coded ?_ rest
    have high := hexValue?_hexDigit (character.toNat / 16) (by omega)
    have low := hexValue?_hexDigit (character.toNat % 16) (by omega)
    have zero : hexValue? '0' = some 0 := by decide
    simp only [code?, zero, high, low, Option.bind_eq_bind, Option.bind_some, pure]
    congr 1
    omega
  · exact .plain (by simp_all [isPlain]) rest

private theorem spelled_flatMap (characters : List Char) :
    Spelled characters (characters.flatMap escapeChar) := by
  induction characters with
  | nil => exact .nil
  | cons first rest ih => exact ih.escapeChar first

private theorem quoted_quote (text : String) : Quoted text (quote text).toList := by
  have quoted := Quoted.of (spelled_flatMap text.toList)
  simpa [quote] using quoted

private theorem digits_toDigits (number : Nat) : Digits (Nat.toDigits 10 number) :=
  ⟨Nat.toDigits_ne_nil, Number.isDigit_toDigits number⟩

/-- A positive number is written without a leading zero. -/
theorem head?_toDigits {number : Nat} (positive : 0 < number) :
    (Nat.toDigits 10 number).head? ≠ some '0' := by
  induction number using Nat.strongRecOn with
  | ind number ih =>
    rcases Nat.lt_or_ge number 10 with small | large
    · rw [Nat.toDigits_of_lt_base small]
      simp
      omega
    · rw [Nat.toDigits_of_base_le (by decide) large,
        List.head?_append_of_ne_nil _ Nat.toDigits_ne_nil]
      exact ih (number / 10) (by omega) (by omega)

private theorem leading_toDigits (number : Nat) (zero : (Nat.toDigits 10 number).head? = some '0') :
    Nat.toDigits 10 number = ['0'] := by
  rcases Nat.eq_zero_or_pos number with rfl | positive
  · exact Nat.toDigits_zero 10
  · exact absurd zero (head?_toDigits positive)

private theorem text_int (number : Int) : Text (.int number) (toString number).toList := by
  let numeral : Numeral := ⟨number < 0, Nat.toDigits 10 number.natAbs, none, none⟩
  have proper : numeral.WellFormed :=
    ⟨digits_toDigits _, leading_toDigits _, nofun, nofun⟩
  have value : numeral.value = .int number := by
    simp only [numeral, Numeral.value, Nat.ofDigitChars_ten_toDigits, decide_eq_true_eq]
    congr 1
    omega
  have text : numeral.text = (toString number).toList := by
    cases number with
    | ofNat number =>
      simp [numeral, Numeral.text, Numeral.signText, Numeral.unsigned, Numeral.fractionText,
        Numeral.exponentText, toString, Int.repr, Nat.toList_repr]
    | negSucc number =>
      simp [numeral, Numeral.text, Numeral.signText, Numeral.unsigned, Numeral.fractionText,
        Numeral.exponentText, toString, Int.repr, Nat.toList_repr]
  rw [← value, ← text]
  exact .number proper

theorem Numeral.value_of_marked {numeral : Numeral}
    (marked : numeral.fraction = none → numeral.exponent ≠ none) :
    numeral.value =
      .double (Number.nearest numeral.negative numeral.amount.num.toNat numeral.amount.den) := by
  rw [value]
  split
  · rename_i fraction exponent
    exact absurd exponent (marked fraction)
  · rfl

theorem Numeral.amount_eq_textValue {numeral : Numeral} (proper : numeral.WellFormed)
    (lower : ∀ entry ∈ numeral.exponent, entry.1 = 'e') :
    numeral.amount = Number.textValue numeral.unsigned := by
  obtain ⟨negative, whole, fraction, exponent⟩ := numeral
  obtain ⟨wholes, _, fractions, _⟩ := proper
  have e (digits : List Char) (proper : Digits digits) : 'e' ∉ digits :=
    Number.not_mem_of_isDigit rfl proper.each
  cases fraction with
  | none =>
    cases exponent with
    | none =>
      simp [amount, unsigned, fractionText, exponentText, Number.textValue_whole wholes.each]
    | some entry =>
      obtain ⟨mark, digits⟩ := entry
      obtain rfl := lower _ rfl
      simp [amount, unsigned, fractionText, exponentText, Number.textValue_exponent (e _ wholes),
        Number.textValue_whole wholes.each]
  | some digits =>
    have point := Number.textValue_point wholes.each (fractions digits rfl).each
    cases exponent with
    | none => simp [amount, unsigned, fractionText, exponentText, point]
    | some entry =>
      obtain ⟨mark, signed⟩ := entry
      obtain rfl := lower _ rfl
      have absent : 'e' ∉ whole ++ '.' :: digits := by
        simp [e _ wholes, e _ (fractions digits rfl)]
      simp only [amount, unsigned, fractionText, exponentText, Number.textValue_exponent absent,
        point, Option.getD_some, Option.map_some]
      rw [mul_assoc, ← zpow_add₀ (by norm_num)]
      congr 2
      ring

section Layout

variable {layout : Number.Layout} (kept : layout.pointKept = true)

include kept in
/-- Digits with a point have digits on both sides of it. -/
theorem point_kept {digits : List Char} (lead : Int) (proper : Digits digits)
    (leading : digits.head? = some '0' → digits = ['0'] ∧ lead = 0) :
    ∃ whole fraction, Digits whole ∧ (whole.head? = some '0' → whole = ['0']) ∧ Digits fraction ∧
      (layout.point digits lead).toList = whole ++ '.' :: fraction := by
  obtain ⟨some, each⟩ := proper
  rw [Number.Layout.point]
  split
  · refine ⟨['0'], List.replicate (-lead - 1).toNat '0' ++ digits, ⟨by simp, by simp⟩, by simp,
      ⟨by simp [some], ?_⟩, by simp [Number.zeros]⟩
    exact List.forall_mem_append.mpr ⟨Number.isDigit_zeros _, each⟩
  · simp only
    split
    · refine ⟨digits ++ List.replicate (lead.toNat + 1 - digits.length) '0', ['0'],
        ⟨by simp [some], List.forall_mem_append.mpr ⟨each, Number.isDigit_zeros _⟩⟩, ?_,
        ⟨by simp, by simp⟩, by simp [Number.zeros]⟩
      intro zero
      rw [List.head?_append_of_ne_nil _ some] at zero
      obtain ⟨rfl, rfl⟩ := leading zero
      rfl
    · rename_i long
      refine ⟨digits.take (lead.toNat + 1), digits.drop (lead.toNat + 1),
        ⟨by simp [some], fun digit member => each digit (List.mem_of_mem_take member)⟩, ?_,
        ⟨?_, fun digit member => each digit (List.mem_of_mem_drop member)⟩, by simp⟩
      · intro zero
        rw [List.head?_take, if_neg (Nat.succ_ne_zero _)] at zero
        obtain ⟨rfl, _⟩ := leading zero
        exact absurd (Nat.le_add_left 1 lead.toNat) long
      · intro none
        rw [List.drop_eq_nil_iff] at none
        exact long none

private theorem signedDigits_exponentText (lead : Int) :
    SignedDigits (layout.exponentText lead) := by
  rw [Number.Layout.exponentText]
  split
  · exact .signed (.inr rfl) (digits_toDigits _)
  · split
    · exact .signed (.inl rfl) (digits_toDigits _)
    · exact .plain (digits_toDigits _)

include kept in
/-- A decimal is written as a numeral with a point or an exponent. -/
theorem exists_numeral (decimal : Number.Decimal)
    (zero : decimal.digits = 0 → decimal.exponent = 0) (negative : Bool) :
    ∃ numeral : Numeral, numeral.WellFormed ∧ numeral.negative = negative ∧
      (numeral.fraction = none → numeral.exponent ≠ none) ∧
      (∀ entry ∈ numeral.exponent, entry.1 = 'e') ∧
      numeral.unsigned = (layout.decimal decimal).toList := by
  have proper := digits_toDigits decimal.digits
  have place (head : (Nat.toDigits 10 decimal.digits).head? = some '0') :
      decimal.exponent + ((Nat.toDigits 10 decimal.digits).length - 1 : Nat) = 0 := by
    rcases Nat.eq_zero_or_pos decimal.digits with none | positive
    · simp [none, zero none]
    · exact absurd head (head?_toDigits positive)
  rw [Number.Layout.decimal]
  split
  · obtain ⟨whole, fraction, wholes, first, fractions, text⟩ :=
      point_kept kept _ proper fun head => ⟨leading_toDigits _ head, place head⟩
    refine ⟨⟨negative, whole, some fraction, none⟩, ⟨wholes, first, ?_, by simp⟩, rfl, by simp,
      by simp, ?_⟩
    · rintro _ ⟨⟩
      exact fractions
    · simp [Numeral.unsigned, Numeral.fractionText, Numeral.exponentText, text]
  · generalize decimal.exponent + ((Nat.toDigits 10 decimal.digits).length - 1 : Nat) = lead
    generalize Nat.toDigits 10 decimal.digits = digits at proper
    obtain ⟨first, rest, rfl⟩ := List.exists_cons_of_ne_nil proper.some
    obtain ⟨head, tail⟩ := List.forall_mem_cons.mp proper.each
    rw [layout.scientific_toList]
    refine ⟨⟨negative, [first], if rest = [] then none else some rest,
      some ('e', layout.exponentText lead)⟩, ⟨⟨by simp, by simpa using head⟩, ?_, ?_, ?_⟩, rfl,
      by simp, ?_, ?_⟩
    · intro zero
      simpa using zero
    · intro digits present
      split at present
      · cases present
      · cases present
        exact ⟨by assumption, tail⟩
    · rintro _ ⟨⟩
      exact ⟨.inl rfl, signedDigits_exponentText _⟩
    · rintro _ ⟨⟩
      rfl
    · by_cases single : rest = []
      · simp [Numeral.unsigned, Numeral.fractionText, Numeral.exponentText, single]
      · simp [Numeral.unsigned, Numeral.fractionText, Numeral.exponentText, single]

end Layout

private theorem text_double {number : Float} (finite : Number.isFinite number = true) :
    Text (.double number) (Json.number.write number).toList := by
  obtain ⟨negative, mantissa, exponent, read⟩ := Number.exists_of_isFinite finite
  have zero := Number.shortest_zero Json.number.tie read
  obtain ⟨numeral, proper, sign, marked, lower, text⟩ :=
    exists_numeral (show Json.number.pointKept = true from rfl) _ zero negative
  have amount : numeral.amount = (Number.shortest Json.number.tie mantissa exponent).value := by
    rw [numeral.amount_eq_textValue proper lower, text, Number.Layout.textValue_decimal]
  have value : numeral.value = .double number := by
    rw [numeral.value_of_marked marked, sign, amount, Number.nearest_shortest _ read]
  have written : numeral.text = (Json.number.write number).toList := by
    rw [Number.Layout.write, read, Numeral.text, Numeral.signText, sign, text]
    cases negative <;> simp [Number.signed]
  rw [← value, ← written]
  exact .number proper

/-- Values that can be written: their numbers are finite, and the fields of an object have names of
their own. -/
inductive Writable : Json → Prop where
  | null : Writable .null
  | bool {truth : Bool} : Writable (.bool truth)
  | int {number : Int} : Writable (.int number)
  | double {number : Float} (finite : Number.isFinite number = true) : Writable (.double number)
  | string {text : String} : Writable (.string text)
  | array {items : List Json} (each : ∀ item ∈ items, Writable item) : Writable (.array items)
  | object {fields : List (String × Json)} (each : ∀ field ∈ fields, Writable field.2)
      (distinct : (fields.map Prod.fst).Nodup) : Writable (.object fields)

theorem blank_nil : Blank [] := nofun

private theorem blank_space : Blank [' '] := by
  intro character member
  obtain rfl := List.mem_singleton.mp member
  rfl

private theorem blank_newLine (level : Nat) : Blank (newLine level).toList := by
  intro character member
  simp only [newLine, String.toList_append, String.toList_ofList, List.mem_append,
    List.mem_replicate] at member
  rcases member with first | ⟨_, rfl⟩
  · obtain rfl := List.mem_singleton.mp first
    rfl
  · rfl

private theorem prettyItems_toList (level : Nat) (items : List Json) :
    (prettyItems level items).toList =
      items.flatMap fun item => ',' :: ((newLine level).toList ++ (pretty level item).toList) := by
  induction items with
  | nil => rfl
  | cons first rest ih => simp [prettyItems, ih]

/-- A field as it is written on a line of its own. -/
def prettyField (level : Nat) (field : String × Json) : List Char :=
  (newLine level).toList ++ (quote field.1).toList ++ ':' :: ' ' :: (pretty level field.2).toList

private theorem prettyFields_toList (level : Nat) (fields : List (String × Json)) :
    (prettyFields level fields).toList =
      fields.flatMap fun field => ',' :: prettyField level field := by
  induction fields with
  | nil => rfl
  | cons first rest ih =>
    obtain ⟨key, value⟩ := first
    simp [prettyFields, prettyField, ih]

/-- Items are listed if each of them can have any blanks behind it: all that stand between the last
one and the closing mark belong to it. -/
theorem listed_flatMap {α : Type} {item : α → List Char → Prop} {write : α → List Char}
    {gap : List Char} (blank : Blank gap) (first : α) (rest : List α)
    (each : ∀ content ∈ first :: rest, ∀ after, Blank after →
      item content (write content ++ after)) :
    Listed item (first :: rest)
      (write first ++ (rest.flatMap fun other => ',' :: write other) ++ gap) := by
  induction rest generalizing first with
  | nil =>
    rw [List.flatMap_nil, List.append_nil]
    exact .last (each first List.mem_cons_self gap blank)
  | cons second rest ih =>
    obtain ⟨head, tail⟩ := List.forall_mem_cons.mp each
    have here := head [] nofun
    rw [List.append_nil] at here
    simpa using Listed.more here (ih second tail)

/-- The indented text of a value is a text of that value. -/
theorem text_pretty {value : Json} (writable : value.Writable) (level : Nat) :
    Text value (value.pretty level).toList := by
  induction writable generalizing level with
  | null =>
    rw [pretty]
    exact .word (by simp [words])
  | @bool truth =>
    rw [pretty]
    cases truth <;> exact .word (by simp [words])
  | int =>
    rw [pretty]
    exact text_int _
  | double finite =>
    rw [pretty]
    exact text_double finite
  | string =>
    rw [pretty]
    exact .string (quoted_quote _)
  | @array items each ih =>
    cases items with
    | nil =>
      rw [pretty]
      exact .array (.empty blank_nil)
    | cons first rest =>
      have listed := listed_flatMap (blank_newLine level) first rest
        fun item member after blank =>
          Element.of (blank_newLine (level + 1)) (ih item member (level + 1)) blank
      rw [pretty]
      simpa [prettyItems_toList] using Text.array (.filled listed)
  | @object fields each distinct ih =>
    cases fields with
    | nil =>
      rw [pretty]
      exact .object (.empty blank_nil) distinct
    | cons first rest =>
      have listed : Listed Member (first :: rest) (prettyField (level + 1) first ++
          (rest.flatMap fun other => ',' :: prettyField (level + 1) other) ++
          (newLine level).toList) := by
        refine listed_flatMap (blank_newLine level) first rest fun field member after blank => ?_
        have value := Element.of blank_space (ih field member (level + 1)) blank
        simpa [prettyField] using
          Member.of (blank_newLine (level + 1)) (quoted_quote field.1) blank_nil value
      obtain ⟨key, value⟩ := first
      rw [pretty]
      simpa [prettyFields_toList, prettyField] using Text.object (.filled listed) distinct

end Json

end Scriptlet
