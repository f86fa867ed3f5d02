import Scriptlet.Proofs.Except
import Scriptlet.Proofs.Token.Joined
import Scriptlet.Proofs.Token.Literals

/-! Where scanning fails. A text that cannot be scanned begins with pieces, as any other text
does, and behind them and some layout stands one of three things with which no lexeme begins: a
string without an end, an integer that is too large, or a character that belongs to no lexeme.
The error tells which of them it is, and where. A line end and more text behind it change nothing
about that, unless it is the end of a string that is missing. -/
namespace Scriptlet

open Scriptlet.Lexeme (Spelled begins beginsFraction goesOn)
open Scriptlet.Text (Position Span byteLength newlines)

namespace Lexeme

/-- The symbols of one character, which are also the first characters of all others. -/
def symbolCharacters : List Char :=
  ['(', ')', '{', '}', '[', ']', '.', ',', ';', '-', '+', '/', '*', '%', '!', '=', '<', '>', ':']

/-- Characters with which neither layout nor a lexeme begins. -/
structure IsForeign (character : Char) : Prop where
  noBlank : character.isWhitespace = false
  noQuote : character ≠ '"'
  noDigit : character.isDigit = false
  noLetter : character.isAlpha = false
  noUnderscore : character ≠ '_'
  noSymbol : character ∉ symbolCharacters

/-- Texts with which no lexeme begins, the faults in them, the words for these faults, and the
stretches at which they point. -/
inductive Unreadable : List Char → ScanFault → String → List Char → Prop where
  | string {rest : List Char} (unclosed : '"' ∉ rest) :
      Unreadable ('"' :: rest) .unterminatedString "unterminated string" ('"' :: rest)
  | integer {digits follow : List Char} (some : digits ≠ [])
      (each : ∀ digit ∈ digits, digit.isDigit = true) (ends : begins Char.isDigit follow = false)
      (whole : beginsFraction follow = false)
      (large : 9223372036854775807 < Nat.ofDigitChars 10 digits 0) :
      Unreadable (digits ++ follow) .integerOutOfRange "integer literal out of range" digits
  | character {first : Char} {rest : List Char} (foreign : IsForeign first) :
      Unreadable (first :: rest) (.unexpectedCharacter first)
        ("unexpected character '" ++ first.toString ++ "'") [first]

private theorem ofSymbol?_eq_none {character : Char} :
    Kind.ofSymbol? character = none ↔ character ∉ symbolCharacters := by
  unfold Kind.ofSymbol? symbolCharacters
  split <;> simp_all

private theorem ofSymbolPair?_eq_none {first : Char} (unknown : first ∉ symbolCharacters)
    (second : Char) : Kind.ofSymbolPair? first second = none := by
  unfold symbolCharacters at unknown
  unfold Kind.ofSymbolPair?
  split <;> simp_all

private theorem not_isWhitespace {first : Char} {rest : List Char}
    (other : beginsLayout (first :: rest) = false) : first.isWhitespace = false := by
  unfold beginsLayout at other
  split at other
  · rename_i slash
    rw [(List.cons.inj slash).1]
    rfl
  · exact other

private theorem unreadable_string {rest : List Char} {fault : ScanFault}
    (failed : string rest = .error fault) :
    Unreadable ('"' :: rest) fault fault.message (fault.extent ('"' :: rest)) := by
  by_cases closed : '"' ∈ rest
  · obtain ⟨body, follow, rfl, inside⟩ := List.eq_append_cons_of_mem closed
    rw [string_spelled inside] at failed
    cases failed
  · unfold string at failed
    simp only at failed
    split at failed
    · cases failed
    · cases failed
      exact .string closed

private theorem unreadable_number {first : Char} {rest : List Char} {fault : ScanFault}
    (digit : first.isDigit = true) (failed : number first rest = .error fault) :
    Unreadable (first :: rest) fault fault.message (fault.extent (first :: rest)) := by
  obtain ⟨digits, follow, rfl, each, ends⟩ := exists_run Char.isDigit rest
  have all : ∀ other ∈ first :: digits, other.isDigit = true :=
    List.forall_mem_cons.mpr ⟨digit, each⟩
  cases fractional : beginsFraction follow with
  | true =>
    unfold beginsFraction at fractional
    split at fractional
    · rename_i after
      obtain ⟨fraction, behind, rfl, inside, stops⟩ := exists_run Char.isDigit after
      have some : fraction ≠ [] := by
        rintro rfl
        rw [List.nil_append, stops] at fractional
        cases fractional
      rw [number_double each inside some stops] at failed
      cases failed
    · cases fractional
  | false =>
    rw [number_int each ends fractional] at failed
    unfold int at failed
    split at failed
    · cases failed
    · rename_i large
      cases failed
      have stretch : (first :: digits ++ follow).takeWhile Char.isDigit = first :: digits :=
        (takeWhile_run all follow ends).1
      rw [List.cons_append] at stretch
      rw [ScanFault.extent, stretch, ← List.cons_append]
      exact .integer (List.cons_ne_nil _ _) all ends fractional (Nat.lt_of_not_le large)

private theorem unreadable_symbol {first : Char} {rest : List Char} {fault : ScanFault}
    (symbolic : IsSymbolic first) (noBlank : first.isWhitespace = false)
    (failed : symbol first rest = .error fault) :
    Unreadable (first :: rest) fault fault.message (fault.extent (first :: rest)) := by
  unfold symbol at failed
  split at failed
  · cases failed
  · split at failed
    · cases failed
    · rename_i unknown
      cases failed
      have noWord : first.isAlpha = false ∧ (first == '_') = false := by
        simpa [isWordStart] using symbolic.noWord
      exact .character ⟨noBlank, symbolic.noQuote, symbolic.noDigit, noWord.1,
        by simpa using noWord.2, ofSymbol?_eq_none.mp unknown⟩

private theorem unreadable_of_read {first : Char} {rest : List Char} {fault : ScanFault}
    (failed : read first rest = .error fault) (other : beginsLayout (first :: rest) = false) :
    Unreadable (first :: rest) fault fault.message (fault.extent (first :: rest)) := by
  unfold read at failed
  split at failed
  · rename_i quote
    subst quote
    exact unreadable_string failed
  · rename_i noQuote
    split at failed
    · rename_i digit
      exact unreadable_number digit failed
    · rename_i noDigit
      split at failed
      · cases failed
      · rename_i noWord
        have symbolic : IsSymbolic first :=
          ⟨noQuote, by simpa using noDigit, by simpa using noWord⟩
        exact unreadable_symbol symbolic (not_isWhitespace other) failed

namespace Unreadable

variable {text extent : List Char} {fault : ScanFault} {message : String}

theorem reported (unreadable : Unreadable text fault message extent) :
    fault.message = message ∧ fault.extent text = extent := by
  cases unreadable with
  | string unclosed => exact ⟨rfl, rfl⟩
  | integer some each ends whole large => exact ⟨rfl, (takeWhile_run each _ ends).1⟩
  | character foreign => exact ⟨rfl, rfl⟩

theorem not_beginsLayout (unreadable : Unreadable text fault message extent) :
    beginsLayout text = false := by
  cases unreadable with
  | string unclosed => rfl
  | integer some each ends whole large =>
    cases extent with
    | nil => exact absurd rfl some
    | cons first digits =>
      exact beginsLayout_class Char.isDigit (each first (List.mem_cons_self ..)) rfl _
  | character foreign =>
    apply beginsLayout_cons foreign.noBlank
    rintro rfl
    exact foreign.noSymbol (by decide)

theorem ne_nil (unreadable : Unreadable text fault message extent) : text ≠ [] := by
  cases unreadable with
  | string unclosed => exact List.cons_ne_nil _ _
  | integer some each ends whole large => exact List.append_ne_nil_of_left_ne_nil some _
  | character foreign => exact List.cons_ne_nil _ _

theorem read {first : Char} {rest : List Char}
    (unreadable : Unreadable (first :: rest) fault message extent) :
    Lexeme.read first rest = .error fault := by
  generalize same : first :: rest = text at unreadable
  cases unreadable with
  | string unclosed =>
    cases same
    have body := takeWhile_all (all_ne_quote unclosed)
    simp only [Lexeme.read, ↓reduceIte, Lexeme.string, body, Nat.lt_irrefl]
  | integer some each ends whole large =>
    cases extent with
    | nil => exact absurd rfl some
    | cons digit digits =>
      rw [List.cons_append] at same
      obtain ⟨rfl, rfl⟩ := List.cons.inj same
      obtain ⟨leading, behind⟩ := List.forall_mem_cons.mp each
      rw [read_number leading, number_int behind ends whole, Lexeme.int, if_neg]
      exact Nat.not_le_of_lt large
  | character foreign =>
    cases same
    have symbolic : IsSymbolic first :=
      ⟨foreign.noQuote, foreign.noDigit, by simp [isWordStart, foreign.noLetter,
        foreign.noUnderscore]⟩
    have single : Kind.ofSymbol? first = none := ofSymbol?_eq_none.mpr foreign.noSymbol
    have noPair : rest.head?.bind (Kind.ofSymbolPair? first) = none := by
      cases rest with
      | nil => rfl
      | cons second rest => exact ofSymbolPair?_eq_none foreign.noSymbol second
    rw [read_symbol symbolic, Lexeme.symbol, noPair, single]

end Unreadable

end Lexeme

/-- Every piece is layout and a lexeme with which the text behind it does not go on, whatever
stands behind the pieces. -/
inductive Piece.Leads : List Piece → List Char → Prop where
  | nil {remaining : List Char} : Leads [] remaining
  | piece {first : Piece} {rest : List Piece} {remaining : List Char} (layout : Layout first.gap)
      (spelled : Spelled first.text first.lexeme)
      (ends : goesOn first.text (source rest remaining) = false) (behind : Leads rest remaining) :
      Leads (first :: rest) remaining

namespace Token

open Scriptlet.Lexeme (Unreadable)
open Scriptlet.Piece (Leads)

/-- Behind pieces and layout, a text begins with something that is not the beginning of a lexeme.
The error is on the line and at the offset of that place. -/
structure FailsBehind (source : List Char) (error : ScanError) (pieces : List Piece)
    (gap remaining extent : List Char) : Prop where
  leads : Leads pieces (gap ++ remaining)
  layout : Layout gap
  parts : source = Piece.source pieces gap ++ remaining
  unreadable : Unreadable remaining error.fault error.message extent
  line : error.line = 1 + newlines (Piece.source pieces gap)
  span : error.span = ⟨byteLength (Piece.source pieces gap), byteLength extent⟩

theorem scanFrom_unreadable {gap remaining extent : List Char} {fault : ScanFault}
    {message : String} (place : Position) (layout : Layout gap)
    (unreadable : Unreadable remaining fault message extent) :
    scanFrom place (gap ++ remaining) =
      .error ⟨fault, (place.advance gap).line, (place.advance gap).span extent⟩ := by
  have other := unreadable.not_beginsLayout
  have stretch := unreadable.reported.2
  cases remaining with
  | nil => exact absurd rfl unreadable.ne_nil
  | cons first rest =>
    rw [scanFrom_step, step_layout place layout other, unreadable.read]
    simp only [stretch]

/-- An error behind pieces is the error of the whole text. -/
theorem scanFrom_leads {pieces : List Piece} {remaining : List Char} {error : ScanError}
    (place : Position) (leads : Leads pieces remaining)
    (failed : scanFrom (place.advance (Piece.source pieces [])) remaining = .error error) :
    scanFrom place (Piece.source pieces remaining) = .error error := by
  induction leads generalizing place with
  | nil => exact failed
  | @piece first rest remaining layout spelled ends behind ih =>
    rw [Piece.source, scanFrom_step, step_piece place layout spelled ends]
    rw [Piece.source, Position.advance_append, Position.advance_append] at failed
    simp only [ih _ failed]
    rfl

private theorem exists_leads {place : Position} {source : List Char} {error : ScanError}
    (failed : scanFrom place source = .error error) :
    ∃ pieces gap remaining, Leads pieces (gap ++ remaining) ∧ Layout gap ∧
      source = Piece.source pieces gap ++ remaining ∧
      ∃ extent, Unreadable remaining error.fault error.message extent ∧
        error.line = (place.advance (Piece.source pieces gap)).line ∧
        error.span = (place.advance (Piece.source pieces gap)).span extent := by
  fun_induction scanFrom place source with
  | case1 place source last stepped => cases failed
  | case2 place source found stepped =>
    cases failed
    rcases divides source with final | ⟨gap, first, rest, rfl, layout, other⟩
    · rw [step_final place final] at stepped
      cases stepped
    · rw [step_layout place layout other] at stepped
      cases unread : Lexeme.read first rest with
      | ok lexeme =>
        simp only [unread] at stepped
        cases stepped
      | error fault =>
        simp only [unread] at stepped
        cases stepped
        have unreadable := Lexeme.unreadable_of_read unread other
        exact ⟨[], gap, first :: rest, .nil, layout, rfl, _, unreadable, rfl, rfl⟩
  | case3 place source token next rest stepped shorter ih =>
    obtain ⟨piece, rfl, layout, spelled, ends, rfl, rfl⟩ := piece_of_step stepped
    have later := Except.error_of_map failed
    obtain ⟨pieces, gap, remaining, leads, final, rfl, extent, unreadable, line, span⟩ := ih later
    refine ⟨piece :: pieces, gap, remaining, ?_, final, ?_, extent, unreadable, ?_, ?_⟩
    · rw [← Piece.source_final] at ends
      exact .piece layout spelled ends leads
    · simp [Piece.source]
    · rw [line, Piece.source, Position.advance_append, Position.advance_append]
    · rw [span, Piece.source, Position.advance_append, Position.advance_append]

theorem FailsBehind.scan {source : String} {error : ScanError} {pieces : List Piece}
    {gap remaining extent : List Char}
    (fails : FailsBehind source.toList error pieces gap remaining extent) :
    scan source = .error error := by
  have stuck := scanFrom_unreadable (Position.start.advance (Piece.source pieces [])) fails.layout
    fails.unreadable
  have before : (Position.start.advance (Piece.source pieces [])).advance gap =
      Position.start.advance (Piece.source pieces gap) := by
    rw [← Position.advance_append, ← Piece.source_final, List.nil_append]
  rw [before] at stuck
  rw [Token.scan, fails.parts, ← Piece.source_final, scanFrom_leads .start fails.leads stuck]
  obtain ⟨fault, line, span⟩ := error
  obtain rfl := fails.line
  obtain rfl := fails.span
  simp [Position.advance, Position.start, Position.span]

theorem exists_failsBehind {source : String} {error : ScanError}
    (failed : scan source = .error error) :
    ∃ pieces gap remaining extent,
      FailsBehind source.toList error pieces gap remaining extent := by
  obtain ⟨pieces, gap, remaining, leads, layout, parts, extent, unreadable, line, span⟩ :=
    exists_leads failed
  refine ⟨pieces, gap, remaining, extent, leads, layout, parts, unreadable, line, ?_⟩
  simpa [Position.advance, Position.start, Position.span] using span

/-- A text that is at its end is never scanned for another token. -/
theorem fault_ne_unexpectedEnd {source : String} {error : ScanError}
    (failed : scan source = .error error) : error.fault ≠ .unexpectedEnd := by
  obtain ⟨pieces, gap, remaining, extent, fails⟩ := exists_failsBehind failed
  intro atEnd
  cases atEnd ▸ fails.unreadable

/-- A run of digits that is no part of a fraction is one integer, however long it is, as long as
its value is not too large. -/
theorem step_digits {gap digits follow : List Char} (place : Position) (layout : Layout gap)
    (present : digits ≠ []) (each : ∀ digit ∈ digits, digit.isDigit = true)
    (ends : begins Char.isDigit follow = false) (whole : beginsFraction follow = false)
    (fits : Nat.ofDigitChars 10 digits 0 ≤ 9223372036854775807) :
    ∃ number : Int64, number.toInt = Nat.ofDigitChars 10 digits 0 ∧
      step place (gap ++ (digits ++ follow)) =
        .found ⟨.intLiteral, some (.value (.int number)), (place.advance gap).line,
          (place.advance gap).span digits⟩ ((place.advance gap).advance digits) follow := by
  cases digits with
  | nil => exact absurd rfl present
  | cons first digits =>
    obtain ⟨leading, behind⟩ := List.forall_mem_cons.mp each
    have spelled : Spelled (first :: digits) _ := .int leading behind fits
    have stops : goesOn (first :: digits) follow = false := by
      simp [Lexeme.goesOn_number leading, ends, whole]
    exact ⟨_, Lexeme.toInt_ofNat fits, @step_piece ⟨gap, _, _⟩ follow place layout spelled stops⟩

/-- Scanning fails just where one of three things stands at a place of a token: a quote without
another one behind it, digits that are too large for an integer, or a character that belongs to
no lexeme; the error names it and points at it. Digits that are not too large are read, with any
number of leading zeros. -/
theorem scan_eq_error_iff (source : String) (error : ScanError) :
    (scan source = .error error ↔ ∃ pieces gap remaining extent,
      FailsBehind source.toList error pieces gap remaining extent) ∧
    ∀ (place : Position) (gap digits follow : List Char), Layout gap → digits ≠ [] →
      (∀ digit ∈ digits, digit.isDigit = true) → begins Char.isDigit follow = false →
      beginsFraction follow = false → Nat.ofDigitChars 10 digits 0 ≤ 9223372036854775807 →
      ∃ number : Int64, number.toInt = Nat.ofDigitChars 10 digits 0 ∧
        step place (gap ++ (digits ++ follow)) =
          .found ⟨.intLiteral, some (.value (.int number)), (place.advance gap).line,
            (place.advance gap).span digits⟩ ((place.advance gap).advance digits) follow := by
  refine ⟨?_, fun place gap digits follow => step_digits place⟩
  constructor
  · exact exists_failsBehind
  · intro given
    obtain ⟨pieces, gap, remaining, extent, fails⟩ := given
    exact fails.scan

/-- A word, a comment, a parenthesis, and digits in front of a point that makes no fraction. -/
def hugeIndex : String := "at // é\n(99999999999999999999.)"

theorem hugeIndex_fails :
    scan hugeIndex = .error ⟨.integerOutOfRange, 2, ⟨10, 20⟩⟩ ∧
      ∃ number : Int64, number.toInt = 7 ∧ step .start "007.a".toList =
        .found ⟨.intLiteral, some (.value (.int number)), 1, ⟨0, 3⟩⟩ ⟨3, 1⟩ ".a".toList := by
  have word : Spelled "at".toList (Lexeme.word 'a' ['t']) :=
    .word (by decide) (List.all_eq_true.mp (by decide))
  have mark : Spelled "(".toList ⟨.leftParen, none, 0⟩ := .symbol rfl
  have comment : Layout " // é\n".toList := by decide +kernel
  have digits : Unreadable "99999999999999999999.)".toList .integerOutOfRange
      "integer literal out of range" "99999999999999999999".toList := by
    have split : "99999999999999999999.)".toList =
        "99999999999999999999".toList ++ ".)".toList := by decide +kernel
    rw [split]
    refine .integer (by decide +kernel) (List.all_eq_true.mp (by decide +kernel)) ?_ ?_ ?_ <;>
      decide +kernel
  have front : Leads [⟨[], "at".toList, Lexeme.word 'a' ['t']⟩,
      ⟨" // é\n".toList, "(".toList, ⟨.leftParen, none, 0⟩⟩] "99999999999999999999.)".toList :=
    .piece .nil word (by decide +kernel) (.piece comment mark (by decide +kernel) .nil)
  constructor
  · apply (scan_eq_error_iff hugeIndex _).1.mpr
    exact ⟨_, [], _, _, front, .nil, by decide +kernel, digits, by decide +kernel,
      by decide +kernel⟩
  · exact (scan_eq_error_iff "007.a" ⟨.unterminatedString, 0, ⟨0, 0⟩⟩).2 .start [] "007".toList
      ".a".toList .nil (by decide) (List.all_eq_true.mp (by decide)) rfl rfl (by decide)

end Token

theorem Piece.Leads.closed {pieces : List Piece} {remaining : List Char} {blank : Char}
    (leads : Piece.Leads pieces remaining) (separates : blank.isWhitespace = true)
    (more : List Char) : Piece.Leads pieces (remaining ++ blank :: more) := by
  induction leads with
  | nil => exact .nil
  | @piece first rest remaining layout spelled ends behind ih =>
    refine .piece layout spelled ?_ ih
    rw [Piece.source_final]
    exact Lexeme.goesOn_resembles (.closed separates (Piece.source rest remaining) more) ends

/-- Nothing is missing at the end of an integer or of a foreign character. -/
theorem Lexeme.Unreadable.closed {text extent : List Char} {fault : ScanFault} {message : String}
    {blank : Char} (unreadable : Lexeme.Unreadable text fault message extent)
    (other : fault ≠ .unterminatedString) (separates : blank.isWhitespace = true)
    (more : List Char) : Lexeme.Unreadable (text ++ blank :: more) fault message extent := by
  cases unreadable with
  | string unclosed => exact absurd rfl other
  | @integer _ follow some each ends whole large =>
    rw [List.append_assoc]
    have resembles := Lexeme.Resembles.closed separates follow more
    exact .integer some each (resembles.not_begins rfl ends) (resembles.not_beginsFraction whole)
      large
  | character foreign => exact .character foreign

namespace Token

theorem FailsBehind.closed {source : List Char} {error : ScanError} {pieces : List Piece}
    {gap remaining extent : List Char}
    (fails : FailsBehind source error pieces gap remaining extent)
    (other : error.fault ≠ .unterminatedString) (more : List Char) :
    FailsBehind (source ++ '\n' :: more) error pieces gap (remaining ++ '\n' :: more) extent where
  leads := by
    rw [← List.append_assoc]
    exact fails.leads.closed rfl more
  layout := fails.layout
  parts := by rw [fails.parts, List.append_assoc]
  unreadable := fails.unreadable.closed other rfl more
  line := fails.line
  span := fails.span

private theorem scan_broken {first : String} {error : ScanError}
    (failed : scan first = .error error) (other : error.fault ≠ .unterminatedString)
    (second : String) :
    scan (first ++ "\n" ++ second) = .error error := by
  obtain ⟨pieces, gap, remaining, extent, fails⟩ := exists_failsBehind failed
  have parts : (first ++ "\n" ++ second).toList = first.toList ++ '\n' :: second.toList := by
    simp
  apply FailsBehind.scan
  rw [parts]
  exact fails.closed other second.toList

/-- Scanning distributes over a line end between two texts: the tokens of the first one are
followed by those of the second one further on, an error of the second one is met further on, and
an error of the first one is met where it is, unless the end of a string is missing. -/
theorem scan_distributes (first second : String) :
    (∀ tokens, scan first = .ok tokens → ∃ front last, tokens = front ++ [last] ∧
      last.kind = .endOfFile ∧
      (∀ others, scan second = .ok others → scan (first ++ "\n" ++ second) = .ok (front ++
        others.map (moved (first.utf8ByteSize + 1) (1 + newlines first.toList)))) ∧
      ∀ error, scan second = .error error → scan (first ++ "\n" ++ second) =
        .error (error.moved (first.utf8ByteSize + 1) (1 + newlines first.toList))) ∧
    ∀ error, scan first = .error error → error.fault ≠ .unterminatedString →
      scan (first ++ "\n" ++ second) = .error error := by
  constructor
  · intro tokens scanned
    have joined := scan_joined scanned second
    obtain ⟨front, last, rfl, _, ends, _⟩ := scan_wellFormed scanned
    rw [List.dropLast_concat] at joined
    refine ⟨front, last, rfl, ends, ?_, ?_⟩
    · intro others also
      rw [joined, also]
    · intro error failed
      rw [joined, failed]
  · exact fun error failed other => scan_broken failed other second

/-- A line end keeps a point from the digit behind it, and a foreign character in front of it is
still met, whatever is open behind it. -/
theorem splitFraction_distributes :
    (∃ tokens others, scan "1." = .ok tokens ∧ scan "5" = .ok others ∧
      scan "1.\n5" = .ok (tokens.dropLast ++ others.map (moved 3 1))) ∧
    scan "1.\n\"" = .error ⟨.unterminatedString, 2, ⟨3, 1⟩⟩ ∧
    scan "é\n\"" = .error ⟨.unexpectedCharacter 'é', 1, ⟨0, 2⟩⟩ := by
  have opened : scan "\"" = .error ⟨.unterminatedString, 1, ⟨0, 1⟩⟩ := by decide +kernel
  have foreign : scan "é" = .error ⟨.unexpectedCharacter 'é', 1, ⟨0, 2⟩⟩ := by decide +kernel
  have ends : ((scan "1.").toOption.isSome && (scan "5").toOption.isSome) = true := by
    decide +kernel
  cases scanned : scan "1." with
  | error error =>
    rw [scanned] at ends
    cases ends
  | ok tokens =>
    cases also : scan "5" with
    | error error =>
      rw [scanned, also] at ends
      cases ends
    | ok others =>
      obtain ⟨front, last, rfl, _, joined, _⟩ := (scan_distributes "1." "5").1 tokens scanned
      obtain ⟨_, _, _, _, _, failed⟩ := (scan_distributes "1." "\"").1 _ scanned
      have plain := joined others also
      refine ⟨⟨_, others, rfl, rfl, ?_⟩, failed _ opened, ?_⟩
      · rw [List.dropLast_concat]
        exact plain
      · exact (scan_distributes "é" "\"").2 _ foreign (by decide)

end Token

end Scriptlet
