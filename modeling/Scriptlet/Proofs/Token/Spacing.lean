import Scriptlet.Proofs.Grammar.StatementComplete
import Scriptlet.Proofs.Grammar.StatementSound
import Scriptlet.Proofs.Token.Account

/-! Layout is free. The layout between tokens may be exchanged for any other that keeps them
apart, and the source scans to the same kinds and literals. A lexeme looks at no more than two
characters behind it, so a text behind it may be exchanged for one that resembles it. -/
namespace Scriptlet

namespace Lexeme

/-- A text that looks to the lexeme in front of it like another one: it begins with a blank or
not at all, or it has the same first character, and what follows begins in the same way. -/
inductive Resembles : List Char → List Char → Prop where
  | apart {follow other : List Char}
      (blank : ∀ first ∈ other.head?, first.isWhitespace = true) : Resembles follow other
  | alike {first : Char} {follow other : List Char}
      (second : ∀ character ∈ other.head?,
        character.isWhitespace = true ∨ follow.head? = some character) :
      Resembles (first :: follow) (first :: other)

/-- A class of characters to which no blank belongs. -/
theorem not_of_blank {accepted : Char → Bool} {character : Char}
    (blanks : [' ', '\t', '\r', '\n'].any accepted = false)
    (blank : character.isWhitespace = true) : accepted character = false := by
  have member : character ∈ [' ', '\t', '\r', '\n'] := by
    simpa [Char.isWhitespace, or_assoc] using blank
  simpa using List.any_eq_false.mp blanks character member

namespace Resembles

variable {follow other : List Char}

theorem refl (follow : List Char) : Resembles follow follow := by
  cases follow with
  | nil => exact .apart (by simp)
  | cons first rest => exact .alike (fun character head => .inr head)

theorem head (resembles : Resembles follow other) :
    ∀ first ∈ other.head?, first.isWhitespace = true ∨ follow.head? = some first := by
  cases resembles with
  | apart blank => exact fun first head => .inl (blank first head)
  | alike second => exact fun first head => .inr head

/-- The same text in front of texts that resemble each other. -/
theorem append (front : List Char) (resembles : Resembles follow other) :
    Resembles (front ++ follow) (front ++ other) := by
  cases front with
  | nil => exact resembles
  | cons first front =>
    apply Resembles.alike
    cases front with
    | nil => exact resembles.head
    | cons second front => exact fun character head => .inr head

theorem not_begins {accepted : Char → Bool} (resembles : Resembles follow other)
    (blanks : [' ', '\t', '\r', '\n'].any accepted = false)
    (ends : begins accepted follow = false) : begins accepted other = false := by
  cases resembles with
  | apart blank =>
    cases other with
    | nil => rfl
    | cons first rest => exact not_of_blank blanks (blank first rfl)
  | alike second => exact ends

theorem not_beginsFraction (resembles : Resembles follow other)
    (ends : beginsFraction follow = false) : beginsFraction other = false := by
  cases resembles with
  | apart blank =>
    unfold beginsFraction
    split
    · have point : '.'.isWhitespace = true := blank '.' rfl
      cases point
    · rfl
  | @alike first follow other second =>
    by_cases point : first = '.'
    · subst point
      cases other with
      | nil => rfl
      | cons digit rest =>
        rcases second digit rfl with blank | same
        · have noDigit : [' ', '\t', '\r', '\n'].any Char.isDigit = false := rfl
          exact not_of_blank noDigit blank
        · obtain ⟨behind, rfl⟩ := List.head?_eq_some_iff.mp same
          exact ends
    · unfold beginsFraction
      split
      · rename_i same
        exact absurd (List.cons.inj same).1 point
      · rfl

end Resembles

/-- Texts that resemble each other go on with the same lexemes. -/
theorem goesOn_resembles {text follow other : List Char} (resembles : Resembles follow other)
    (ends : goesOn text follow = false) : goesOn text other = false := by
  cases text with
  | nil => rfl
  | cons first tail =>
    by_cases quote : first = '"'
    · subst quote
      rfl
    · by_cases digit : first.isDigit = true
      · rw [goesOn_number digit, Bool.or_eq_false_iff, Bool.and_eq_false_iff] at ends ⊢
        refine ⟨resembles.not_begins rfl ends.1, ?_⟩
        rcases ends.2 with fraction | none
        · exact .inl fraction
        · exact .inr (resembles.not_beginsFraction none)
      · by_cases leading : isWordStart first = true
        · rw [goesOn_word leading] at ends ⊢
          exact resembles.not_begins rfl ends
        · have symbolic : IsSymbolic first := ⟨quote, by simpa using digit, by simpa using leading⟩
          rw [goesOn_symbol symbolic, Bool.and_eq_false_iff] at ends ⊢
          rcases ends with more | none
          · exact .inl more
          · refine .inr (resembles.not_begins ?_ none)
            simp [Kind.ofSymbolPair?]

end Lexeme

open Scriptlet.Lexeme (Resembles begins goesOn)

/-- Layout that keeps what stands around it apart, since it begins with a blank. -/
structure Spacing (gap : String) : Prop where
  layout : Layout gap.toList
  apart : begins Char.isWhitespace gap.toList = true

/-- Spacing at the end of a source, where the last comment needs no end of a line. -/
structure FinalSpacing (gap : String) : Prop where
  layout : FinalLayout gap.toList
  apart : begins Char.isWhitespace gap.toList = true

/-- Gaps behind tokens, and others that may stand in their place: a gap stays as it is or
becomes any spacing, and the last one may become empty. -/
inductive Respaced : List String → List String → Prop where
  | last {gap other : String} (allowed : other = gap ∨ other = "" ∨ FinalSpacing other) :
      Respaced [gap] [other]
  | inner {gap other : String} {gaps others : List String} (allowed : other = gap ∨ Spacing other)
      (behind : Respaced gaps others) : Respaced (gap :: gaps) (other :: others)

/-- Gaps around all tokens of a source, and others. In front of the first token any layout
will do, also none. -/
inductive RespacedSource : List String → List String → Prop where
  | behind {gaps others : List String} (behind : Respaced gaps others) : RespacedSource gaps others
  | front {gap other : String} {gaps others : List String} (layout : Layout other.toList)
      (behind : Respaced gaps others) : RespacedSource (gap :: gaps) (other :: others)

namespace Piece

open Scriptlet.Text (Position)

/-- The kind and the literal of a piece. -/
def symbol (piece : Piece) : Symbol := ⟨piece.lexeme.kind, piece.lexeme.literal⟩

theorem symbols_tokens (place : Position) (pieces : List Piece) (final : List Char) :
    (tokens place pieces final).map Token.symbol =
      pieces.map Piece.symbol ++ [.mark .endOfFile] := by
  induction pieces generalizing place with
  | nil => rfl
  | cons piece rest ih =>
    rw [tokens, List.map_cons, ih]
    rfl

/-- The gaps of pieces and of what follows them. -/
def gaps (pieces : List Piece) (final : List Char) : List String :=
  (pieces.map Piece.gap ++ [final]).map String.ofList

/-- Pieces with the texts and lexemes of others, and any gaps. -/
structure Redone (pieces others : List Piece) : Prop where
  texts : others.map Piece.text = pieces.map Piece.text
  symbols : others.map Piece.symbol = pieces.map Piece.symbol

theorem Redone.cons {pieces others : List Piece} (redone : Redone pieces others) (piece : Piece)
    (gap : List Char) : Redone (piece :: pieces) (⟨gap, piece.text, piece.lexeme⟩ :: others) := by
  constructor
  · rw [List.map_cons, List.map_cons, redone.texts]
  · rw [List.map_cons, List.map_cons, redone.symbols]
    rfl

private theorem resembles_apart (follow : List Char) {gap : String} (other : List Char)
    (apart : begins Char.isWhitespace gap.toList = true) :
    Resembles follow (gap.toList ++ other) := by
  apply Resembles.apart
  intro first head
  cases parts : gap.toList with
  | nil =>
    rw [parts] at apart
    cases apart
  | cons blank rest =>
    rw [parts] at apart head
    obtain rfl : blank = first := Option.some.inj head
    exact apart

/-- Pieces can be respaced, and the source they make up resembles that of the old ones. -/
theorem Arranged.respace {pieces : List Piece} {final : List Char} {others : List String}
    (arranged : Arranged pieces final) (respaced : Respaced (gaps pieces final) others) :
    ∃ again last, others = gaps again last ∧ Redone pieces again ∧ Arranged again last ∧
      Resembles (source pieces final) (source again last) := by
  induction arranged generalizing others with
  | @final text layout =>
    cases respaced with
    | @last _ other allowed =>
      refine ⟨[], other.toList, by simp [gaps], ⟨rfl, rfl⟩, ?_⟩
      rcases allowed with rfl | rfl | spacing
      · rw [String.toList_ofList]
        exact ⟨.final layout, .refl text⟩
      · exact ⟨.final (.closed .nil), .apart (by simp [source])⟩
      · refine ⟨.final spacing.layout, ?_⟩
        simpa [source] using resembles_apart text [] spacing.apart
    | inner _ behind => cases behind
  | @piece first rest text layout spelled ends behind ih =>
    have parts : gaps (first :: rest) text = String.ofList first.gap :: gaps rest text := rfl
    rw [parts] at respaced
    generalize inside : gaps rest text = inner at respaced
    cases respaced with
    | last => simp [gaps] at inside
    | @inner _ other _ others allowed following =>
      subst inside
      obtain ⟨again, last, rfl, redone, arranged, resembles⟩ := ih following
      have ends := Lexeme.goesOn_resembles resembles ends
      refine ⟨⟨other.toList, first.text, first.lexeme⟩ :: again, last, by simp [gaps],
        redone.cons first other.toList, ?_⟩
      rcases allowed with rfl | spacing
      · rw [String.toList_ofList]
        exact ⟨.piece layout spelled ends arranged, (resembles.append first.text).append first.gap⟩
      · exact ⟨.piece spacing.layout spelled ends arranged, resembles_apart _ _ spacing.apart⟩

/-- Layout of any kind may stand in front of all pieces. -/
theorem Arranged.respaceSource {pieces : List Piece} {final : List Char} {others : List String}
    (arranged : Arranged pieces final) (respaced : RespacedSource (gaps pieces final) others) :
    ∃ again last, others = gaps again last ∧ Redone pieces again ∧ Arranged again last := by
  generalize inside : gaps pieces final = old at respaced
  cases respaced with
  | behind respaced =>
    subst inside
    obtain ⟨again, last, same, redone, arranged, _⟩ := arranged.respace respaced
    exact ⟨again, last, same, redone, arranged⟩
  | @front _ other _ _ layout respaced =>
    cases arranged with
    | final =>
      obtain ⟨_, rfl⟩ := List.cons.inj inside
      cases respaced
    | @piece first rest _ _ spelled ends behind =>
      obtain ⟨_, rfl⟩ := List.cons.inj inside
      obtain ⟨again, last, rfl, redone, arranged, resembles⟩ := behind.respace respaced
      refine ⟨⟨other.toList, first.text, first.lexeme⟩ :: again, last, by simp [gaps],
        redone.cons first other.toList, ?_⟩
      exact .piece layout spelled (Lexeme.goesOn_resembles resembles ends) arranged

end Piece

namespace Grammar

/-- Tokens of the same kinds and literals are read as the same program, up to line numbers. -/
theorem parse_symbols {tokens others : List Token} {last final : Token} {program : Program}
    (each : ∀ token ∈ tokens, token.WellFormed ∧ token.kind ≠ .endOfFile)
    (fits : last.WellFormed) (ends : last.kind = .endOfFile) (finalEnds : final.kind = .endOfFile)
    (same : others.map Token.symbol = tokens.map Token.symbol)
    (success : parse (tokens ++ [last]) = .ok program) :
    ∃ again, parse (others ++ [final]) = .ok again ∧ again.withoutLines = program.withoutLines := by
  obtain ⟨written, spelled, rfl⟩ := parse_reads each fits ends success
  refine ⟨_, parse_accepts written (same.trans spelled) finalEnds, ?_⟩
  rw [written.withoutLines_desugar, written.withoutLines_desugar]

end Grammar

namespace Token

private theorem parse_of_symbols {source other : String} {tokens others : List Token}
    {program : Program} (scanned : scan source = .ok tokens) (also : scan other = .ok others)
    (same : others.map Token.symbol = tokens.map Token.symbol)
    (success : Grammar.parse tokens = .ok program) :
    ∃ again, Grammar.parse others = .ok again ∧ again.withoutLines = program.withoutLines := by
  obtain ⟨front, last, rfl, fits, ends, each⟩ := scan_wellFormed scanned
  obtain ⟨back, final, rfl, _, finalEnds, _⟩ := scan_wellFormed also
  simp only [List.map_append, List.map_cons, List.map_nil] at same
  obtain ⟨inside, _⟩ := List.append_inj' same rfl
  exact Grammar.parse_symbols each fits ends finalEnds inside success

/-- A source scans to the same kinds and literals whatever layout stands between its tokens, and
so it is read as the same program, up to line numbers. -/
theorem scan_respaced {source : String} {tokens : List Token} {others : List String}
    (success : scan source = .ok tokens)
    (respaced : RespacedSource (gaps source 0 tokens) others) :
    ∃ again, scan (interleave others (tokens.map (text source))) = .ok again ∧
      again.map Token.symbol = tokens.map Token.symbol ∧
      ∀ tree, (∃ program, Grammar.parse again = .ok program ∧ program.withoutLines = tree) ↔
        ∃ program, Grammar.parse tokens = .ok program ∧ program.withoutLines = tree := by
  obtain ⟨pieces, final, arranged, rfl, rfl⟩ := arranged_of_scan success
  rw [gaps_arranged] at respaced
  obtain ⟨again, last, rfl, redone, rearranged⟩ := arranged.respaceSource respaced
  have scanned : scan (String.ofList (Piece.source again last)) =
      .ok (Piece.tokens .start again last) := by
    rw [scan, String.toList_ofList]
    exact scanFrom_arranged .start rearranged
  have same : (Piece.tokens .start again last).map Token.symbol =
      (Piece.tokens .start pieces final).map Token.symbol := by
    rw [Piece.symbols_tokens, Piece.symbols_tokens, redone.symbols]
  refine ⟨_, ?_, same, ?_⟩
  · rw [texts_arranged, ← redone.texts, Piece.gaps, Piece.interleave_pieces]
    exact scanned
  · intro tree
    constructor
    · rintro ⟨program, read, rfl⟩
      exact parse_of_symbols scanned success same.symm read
    · rintro ⟨program, read, rfl⟩
      exact parse_of_symbols success scanned same read

/-- An integer, a point right in front of another integer, and a comment. -/
def spacedPoint : String := "42 .5// a"

/-- Other gaps around the three tokens, of which the point still touches what follows it. -/
def pointGaps : List String := ["// b\n", "\t// c\n ", "", " // d"]

theorem spacedPoint_respaced : ∃ tokens, scan spacedPoint = .ok tokens ∧
    gaps spacedPoint 0 tokens = ["", " ", "", "// a"] ∧
    RespacedSource (gaps spacedPoint 0 tokens) pointGaps ∧
    ∃ again, scan "// b\n42\t// c\n .5 // d" = .ok again ∧
      again.map Token.symbol = tokens.map Token.symbol := by
  have found : (scan spacedPoint).toOption.map (fun tokens =>
      (gaps spacedPoint 0 tokens, tokens.map (text spacedPoint))) =
      some (["", " ", "", "// a"], ["42", ".", "5", ""]) := by
    decide +kernel
  cases scanned : scan spacedPoint with
  | error error =>
    rw [scanned] at found
    cases found
  | ok tokens =>
    rw [scanned] at found
    obtain ⟨around, texts⟩ := Prod.mk.inj (Option.some.inj found)
    have respaced : RespacedSource (gaps spacedPoint 0 tokens) pointGaps := by
      rw [around]
      have inner : Spacing "\t// c\n " := ⟨by decide +kernel, by decide +kernel⟩
      have last : FinalSpacing " // d" := ⟨by decide +kernel, by decide +kernel⟩
      exact .front (by decide +kernel)
        (.inner (.inr inner) (.inner (.inl rfl) (.last (.inr (.inr last)))))
    obtain ⟨again, scannedAgain, same, _⟩ := scan_respaced scanned respaced
    rw [texts] at scannedAgain
    exact ⟨tokens, rfl, around, respaced, again, scannedAgain, same⟩

end Token

end Scriptlet
