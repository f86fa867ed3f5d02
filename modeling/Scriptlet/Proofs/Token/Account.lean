import Scriptlet.Proofs.Text.Slice
import Scriptlet.Proofs.Token.Arrangement
import Scriptlet.Proofs.Token.WellFormed

/-! Scanned tokens account for the whole source. Their texts stand in it one after the other,
only layout stands in front of, between and behind them, and each of them is read from its
text alone. -/
namespace Scriptlet

open Scriptlet.Text (Placed Position byteLength slice)

namespace Token

/-- The text that a token takes up in its source. -/
def text (source : String) (token : Token) : String :=
  slice source token.span.offset token.span.stop

/-- The texts in front of tokens, each from the end of the token before it on. -/
def gaps (source : String) : Nat → List Token → List String
  | _, [] => []
  | start, token :: rest =>
    slice source start token.span.offset :: gaps source token.span.stop rest

/-- Gaps and texts in turn. -/
def interleave (gaps texts : List String) : String :=
  String.join (List.zipWith (· ++ ·) gaps texts)

/-- Tokens that stand for a source and its parts. -/
structure Account (source : String) (tokens : List Token) : Prop where
  /-- The last token ends the source behind its last character, and no other one does. -/
  ends : ∃ front last, tokens = front ++ [last] ∧ last.kind = .endOfFile ∧
    last.span = ⟨source.utf8ByteSize, 0⟩ ∧ ∀ token ∈ front, token.kind ≠ .endOfFile
  placed : ∀ token ∈ tokens, Placed source token.line token.span
  someText : ∀ token ∈ tokens, token.kind ≠ .endOfFile → 0 < token.span.length
  ordered : tokens.Pairwise fun first second => first.span.stop ≤ second.span.offset
  whole : interleave (gaps source 0 tokens) (tokens.map (text source)) = source
  layout : ∃ inner final, gaps source 0 tokens = inner ++ [final] ∧
    (∀ gap ∈ inner, Layout gap.toList) ∧ FinalLayout final.toList
  /-- The text of a token alone scans to a token of the same kind and literal. -/
  alone : ∀ token ∈ tokens, token.kind ≠ .endOfFile → ∃ single last,
    scan (token.text source) = .ok [single, last] ∧ single.symbol = token.symbol ∧
      last.kind = .endOfFile
  literals : ∀ token ∈ tokens, token.literal.isSome = token.kind.carriesLiteral ∧
    ∀ literal ∈ token.literal, literal.kind = token.kind

end Token

namespace Piece

open Scriptlet.Lexeme (Spelled)

private theorem source_append (front back : List Piece) (final : List Char) :
    source (front ++ back) final = source front (source back final) := by
  induction front with
  | nil => rfl
  | cons piece rest ih => simp [source, ih]

/-- Text behind the last piece is text behind the source. -/
theorem source_final (pieces : List Piece) (final more : List Char) :
    source pieces (final ++ more) = source pieces final ++ more := by
  induction pieces with
  | nil => rfl
  | cons piece rest ih => simp [source, ih]

/-- A token stands for the text of a piece, at the place behind all that stands in front of
that text, or for the end of the source. -/
theorem mem_tokens {place : Position} {pieces : List Piece} {final : List Char} {token : Token}
    (member : token ∈ tokens place pieces final) :
    (∃ front piece back, pieces = front ++ piece :: back ∧
      token = piece.lexeme.token (place.advance (source front piece.gap)) piece.text) ∨
    token = Token.endOfFile (place.advance (source pieces final)) := by
  induction pieces generalizing place with
  | nil => exact .inr (List.mem_singleton.mp member)
  | cons first rest ih =>
    rcases List.mem_cons.mp member with rfl | member
    · exact .inl ⟨[], first, rest, rfl, rfl⟩
    · rcases ih member with ⟨front, piece, back, rfl, rfl⟩ | rfl
      · left
        refine ⟨first :: front, piece, back, rfl, ?_⟩
        simp only [source, Position.advance_append]
      · right
        simp only [source, Position.advance_append]

/-- What stands in front of the text of a piece, that text, and what stands behind it. -/
theorem source_split (front back : List Piece) (piece : Piece) (final : List Char) :
    source (front ++ piece :: back) final =
      source front piece.gap ++ (piece.text ++ source back final) := by
  rw [source_append, source, source_final]

private theorem offset_advance (before : List Char) :
    (Position.start.advance before).offset = byteLength before := by
  simp [Position.advance, Position.start]

private theorem gaps_tokens (before : List Char) (pieces : List Piece) (final : List Char) :
    Token.gaps (String.ofList (before ++ source pieces final)) (byteLength before)
        (tokens (Position.start.advance before) pieces final) =
      (pieces.map Piece.gap ++ [final]).map String.ofList := by
  induction pieces generalizing before with
  | nil =>
    have part := Text.slice_append before final []
    rw [List.append_nil] at part
    simpa [tokens, source, Token.gaps, Token.endOfFile, ← Position.advance_append,
      offset_advance] using part
  | cons piece rest ih =>
    have part := Text.slice_append before piece.gap (piece.text ++ source rest final)
    have behind := ih (before ++ (piece.gap ++ piece.text))
    simp only [tokens, source, Token.gaps, Lexeme.token, Position.span, Text.Span.stop,
      ← Position.advance_append, offset_advance, Text.byteLength_append, List.append_assoc,
      List.map_cons, List.cons_append, Nat.add_assoc] at part behind ⊢
    rw [part, behind]

private theorem texts_tokens (before : List Char) (pieces : List Piece) (final : List Char) :
    (tokens (Position.start.advance before) pieces final).map
        (Token.text (String.ofList (before ++ source pieces final))) =
      (pieces.map Piece.text ++ [[]]).map String.ofList := by
  induction pieces generalizing before with
  | nil =>
    have part := Text.slice_append (before ++ final) [] []
    simpa [tokens, source, Token.text, Token.endOfFile, Text.Span.stop, ← Position.advance_append,
      offset_advance] using part
  | cons piece rest ih =>
    have part := Text.slice_append (before ++ piece.gap) piece.text (source rest final)
    have behind := ih (before ++ (piece.gap ++ piece.text))
    simp only [tokens, source, Token.text, Lexeme.token, Position.span, Text.Span.stop,
      ← Position.advance_append, offset_advance, Text.byteLength_append, List.append_assoc,
      List.map_cons, List.cons_append, Nat.add_assoc] at part behind ⊢
    rw [part, behind]

theorem interleave_pieces (pieces : List Piece) (final : List Char) :
    Token.interleave ((pieces.map Piece.gap ++ [final]).map String.ofList)
        ((pieces.map Piece.text ++ [[]]).map String.ofList) =
      String.ofList (source pieces final) := by
  apply String.toList_injective
  rw [Token.interleave, String.toList_join, String.toList_ofList]
  induction pieces with
  | nil => simp [source]
  | cons piece rest ih =>
    simp only [List.map_append, List.map_cons, List.map_nil, List.cons_append,
      List.zipWith_cons_cons, List.flatMap_cons] at ih ⊢
    rw [ih]
    simp [source]

private theorem tokens_ordered (place : Position) (pieces : List Piece) (final : List Char) :
    ((tokens place pieces final).Pairwise fun first second =>
      first.span.stop ≤ second.span.offset) ∧
    ∀ token ∈ tokens place pieces final, place.offset ≤ token.span.offset := by
  induction pieces generalizing place with
  | nil => simp [tokens, Token.endOfFile, Position.advance]
  | cons piece rest ih =>
    obtain ⟨ordered, later⟩ := ih ((place.advance piece.gap).advance piece.text)
    constructor
    · exact List.pairwise_cons.mpr ⟨later, ordered⟩
    · intro token member
      rcases List.mem_cons.mp member with rfl | member
      · simp [Lexeme.token, Position.span, Position.advance]
      · have behind := later token member
        simp only [Position.advance] at behind
        omega

private theorem Arranged.spelled {pieces : List Piece} {final : List Char} {piece : Piece}
    (arranged : Arranged pieces final) (member : piece ∈ pieces) :
    Spelled piece.text piece.lexeme := by
  induction arranged with
  | final layout => cases member
  | piece layout spelled ends behind ih =>
    rcases List.mem_cons.mp member with rfl | member
    · exact spelled
    · exact ih member

private theorem Arranged.layout {pieces : List Piece} {final : List Char}
    (arranged : Arranged pieces final) :
    (∀ piece ∈ pieces, Layout piece.gap) ∧ FinalLayout final := by
  induction arranged with
  | final layout => exact ⟨by simp, layout⟩
  | piece layout spelled ends behind ih =>
    exact ⟨List.forall_mem_cons.mpr ⟨layout, ih.1⟩, ih.2⟩

end Piece

private theorem Lexeme.Spelled.proper {text : List Char} {lexeme : Lexeme}
    (spelled : Spelled text lexeme) : lexeme.Proper := by
  cases text with
  | nil => exact absurd rfl spelled.ne_nil
  | cons first tail => exact Lexeme.proper_read (Lexeme.read_of_spelled spelled (goesOn_nil _))

namespace Token

open Scriptlet.Lexeme (Spelled)
open Scriptlet.Piece (Arranged)

theorem scan_spelled {text : List Char} {lexeme : Lexeme} (spelled : Spelled text lexeme) :
    scan (String.ofList text) =
      .ok [lexeme.token .start text, endOfFile (Position.start.advance text)] := by
  have single : Arranged [⟨[], text, lexeme⟩] [] :=
    .piece .nil spelled (Lexeme.goesOn_nil text) (.final (.closed .nil))
  have scanned := scanFrom_arranged .start single
  rw [scan, String.toList_ofList]
  simpa [Piece.source, Piece.tokens] using scanned

theorem WellFormed.carriesLiteral {token : Token} (fits : token.WellFormed) :
    token.literal.isSome = token.kind.carriesLiteral ∧
      ∀ literal ∈ token.literal, literal.kind = token.kind := by
  obtain ⟨kind, literal, line, span⟩ := token
  cases literal with
  | none =>
    have none : kind.carriesLiteral = false := fits
    exact ⟨none.symm, by simp⟩
  | some literal =>
    have same : kind = literal.kind := fits
    subst same
    refine ⟨?_, by simp⟩
    cases literal with
    | identifier name => rfl
    | value value => cases value <;> rfl

section

variable {pieces : List Piece} {final : List Char} {token : Token}

/-- A token of an arranged source stands for a lexeme somewhere in it or for its end. -/
theorem exists_lexeme (arranged : Arranged pieces final)
    (member : token ∈ Piece.tokens .start pieces final) :
    (∃ before text after lexeme, Piece.source pieces final = before ++ (text ++ after) ∧
      Spelled text lexeme ∧ token = lexeme.token (Position.start.advance before) text) ∨
    token = endOfFile (Position.start.advance (Piece.source pieces final)) := by
  rcases Piece.mem_tokens member with ⟨front, piece, back, rfl, rfl⟩ | rfl
  · left
    refine ⟨_, piece.text, _, piece.lexeme, Piece.source_split front back piece final, ?_, rfl⟩
    apply arranged.spelled
    simp
  · exact .inr rfl

private theorem placed_of_arranged (arranged : Arranged pieces final)
    (member : token ∈ Piece.tokens .start pieces final) :
    Placed (String.ofList (Piece.source pieces final)) token.line token.span := by
  rcases exists_lexeme arranged member with ⟨before, text, after, lexeme, split, _, rfl⟩ | rfl
  · rw [split]
    exact Text.placed_append before text after
  · have placed := Text.placed_append (Piece.source pieces final) [] []
    simp only [List.append_nil] at placed
    exact placed

/-- The token at the end of a source stands behind its last character. -/
theorem span_of_arranged (arranged : Arranged pieces final)
    (member : token ∈ Piece.tokens .start pieces final) (ends : token.kind = .endOfFile) :
    token.span = ⟨(String.ofList (Piece.source pieces final)).utf8ByteSize, 0⟩ := by
  rcases exists_lexeme arranged member with ⟨before, text, after, lexeme, _, spelled, rfl⟩ | rfl
  · exact absurd ends spelled.proper.2
  · rw [Text.utf8ByteSize_ofList, ← Piece.offset_advance]
    rfl

/-- Any other token has some text, which alone scans to the same kind and literal. -/
theorem alone_of_arranged (arranged : Arranged pieces final)
    (member : token ∈ Piece.tokens .start pieces final) (other : token.kind ≠ .endOfFile) :
    0 < token.span.length ∧ ∃ single last,
      scan (token.text (String.ofList (Piece.source pieces final))) = .ok [single, last] ∧
        single.symbol = token.symbol ∧ last.kind = .endOfFile := by
  rcases exists_lexeme arranged member with ⟨before, text, after, lexeme, split, spelled, rfl⟩ | rfl
  · have part : Token.text (String.ofList (Piece.source pieces final))
        (lexeme.token (Position.start.advance before) text) = String.ofList text := by
      rw [split, ← Text.slice_append before text after, ← Piece.offset_advance before]
      rfl
    rw [part]
    exact ⟨Text.byteLength_pos spelled.ne_nil, _, _, scan_spelled spelled, rfl, rfl⟩
  · exact absurd rfl other

end

section

variable {source : String} {tokens : List Token}

theorem arranged_of_scan (success : scan source = .ok tokens) :
    ∃ pieces final, Arranged pieces final ∧ source = String.ofList (Piece.source pieces final) ∧
      tokens = Piece.tokens .start pieces final := by
  obtain ⟨pieces, final, arranged, parts, same⟩ := exists_arranged success
  exact ⟨pieces, final, arranged, by rw [← parts, String.ofList_toList], same⟩

theorem gaps_arranged (pieces : List Piece) (final : List Char) :
    gaps (String.ofList (Piece.source pieces final)) 0 (Piece.tokens .start pieces final) =
      (pieces.map Piece.gap ++ [final]).map String.ofList := by
  simpa using Piece.gaps_tokens [] pieces final

theorem texts_arranged (pieces : List Piece) (final : List Char) :
    (Piece.tokens .start pieces final).map (text (String.ofList (Piece.source pieces final))) =
      (pieces.map Piece.text ++ [[]]).map String.ofList := by
  simpa using Piece.texts_tokens [] pieces final

/-- Only layout stands around the tokens of a source. -/
theorem layout_of_arranged {pieces : List Piece} {final : List Char}
    (arranged : Arranged pieces final) :
    ∃ inner last, gaps (String.ofList (Piece.source pieces final)) 0
        (Piece.tokens .start pieces final) = inner ++ [last] ∧
      (∀ gap ∈ inner, Layout gap.toList) ∧ FinalLayout last.toList := by
  refine ⟨(pieces.map Piece.gap).map String.ofList, String.ofList final, ?_, ?_, ?_⟩
  · rw [gaps_arranged, List.map_append]
    rfl
  · intro gap member
    obtain ⟨_, inside, rfl⟩ := List.mem_map.mp member
    obtain ⟨piece, present, rfl⟩ := List.mem_map.mp inside
    rw [String.toList_ofList]
    exact arranged.layout.1 piece present
  · rw [String.toList_ofList]
    exact arranged.layout.2

theorem placed_of_scan (success : scan source = .ok tokens) :
    ∀ token ∈ tokens, Placed source token.line token.span := by
  obtain ⟨pieces, final, arranged, rfl, rfl⟩ := arranged_of_scan success
  exact fun token member => placed_of_arranged arranged member

theorem wellFormed_of_scan (success : scan source = .ok tokens) :
    ∀ token ∈ tokens, token.WellFormed := by
  obtain ⟨front, last, rfl, fits, _, each⟩ := scan_wellFormed success
  intro token member
  rcases List.mem_append.mp member with member | member
  · exact (each token member).1
  · obtain rfl := List.mem_singleton.mp member
    exact fits

/-- Scanned tokens account for the whole source. -/
theorem scan_accounts (success : scan source = .ok tokens) : Account source tokens := by
  have placed := placed_of_scan success
  have wellFormed := wellFormed_of_scan success
  obtain ⟨front, last, same, _, ends, each⟩ := scan_wellFormed success
  obtain ⟨pieces, final, arranged, rfl, rfl⟩ := arranged_of_scan success
  refine ⟨⟨front, last, same, ends, ?_, fun token member => (each token member).2⟩, placed,
    ?_, ?_, ?_, ?_, ?_, ?_⟩
  · apply span_of_arranged arranged _ ends
    rw [same]
    simp
  · exact fun token member other => (alone_of_arranged arranged member other).1
  · exact (Piece.tokens_ordered .start pieces final).1
  · rw [gaps_arranged, texts_arranged]
    exact Piece.interleave_pieces pieces final
  · exact layout_of_arranged arranged
  · exact fun token member other => (alone_of_arranged arranged member other).2
  · exact fun token member => (wellFormed token member).carriesLiteral

end

/-- A call with a comment and a string of two lines, with characters of more than one byte. -/
def brokenCall : String := "print // é\n(\"ü\n\");"

theorem brokenCall_accounts : ∃ tokens, scan brokenCall = .ok tokens ∧
    tokens.map (fun token => (token.line, token.span)) =
      [(1, ⟨0, 5⟩), (2, ⟨12, 1⟩), (2, ⟨13, 5⟩), (3, ⟨18, 1⟩), (3, ⟨19, 1⟩), (3, ⟨20, 0⟩)] ∧
    Account brokenCall tokens := by
  have places : (scan brokenCall).toOption.map
      (fun tokens => tokens.map fun token => (token.line, token.span)) =
      some [(1, ⟨0, 5⟩), (2, ⟨12, 1⟩), (2, ⟨13, 5⟩), (3, ⟨18, 1⟩), (3, ⟨19, 1⟩), (3, ⟨20, 0⟩)] := by
    decide +kernel
  cases scanned : scan brokenCall with
  | error error =>
    rw [scanned] at places
    cases places
  | ok tokens =>
    rw [scanned] at places
    exact ⟨tokens, rfl, Option.some.inj places, scan_accounts scanned⟩

end Token

end Scriptlet
