import Scriptlet.Proofs.Token.Extent
import Scriptlet.Token.Scan

/-! Sources as their tokens and the layout around them. A source that scans is arranged in
pieces, each of them layout and a lexeme behind it, and ends with layout. Scanning takes it
apart into just these pieces. -/
namespace Scriptlet

open Scriptlet.Lexeme (Spelled begins goesOn)
open Scriptlet.Text (Position)

/-- Blanks, tabs, line ends, and comments up to the end of their line. -/
inductive Layout : List Char → Prop where
  | nil : Layout []
  | blank {character : Char} {rest : List Char} (separates : character.isWhitespace = true)
      (behind : Layout rest) : Layout (character :: rest)
  | comment {body rest : List Char} (inside : '\n' ∉ body) (behind : Layout rest) :
      Layout ('/' :: '/' :: (body ++ '\n' :: rest))

/-- Layout up to the end of a source, where the last comment needs no end of a line. -/
inductive FinalLayout : List Char → Prop where
  | closed {text : List Char} (layout : Layout text) : FinalLayout text
  | comment {front body : List Char} (layout : Layout front) (inside : '\n' ∉ body) :
      FinalLayout (front ++ '/' :: '/' :: body)

/-- Whether a text begins with layout. -/
def beginsLayout : List Char → Bool
  | '/' :: rest => begins (· == '/') rest
  | text => begins Char.isWhitespace text

theorem beginsLayout_cons {first : Char} (noBlank : first.isWhitespace = false)
    (noSlash : first ≠ '/') (rest : List Char) : beginsLayout (first :: rest) = false := by
  unfold beginsLayout
  split
  · rename_i same
    exact absurd (List.cons.inj same).1 noSlash
  · exact noBlank

private theorem beginsLayout_append {first : Char} {rest more : List Char}
    (other : beginsLayout (first :: rest) = false) (apart : begins (· == '/') more = false) :
    beginsLayout (first :: (rest ++ more)) = false := by
  by_cases slash : first = '/'
  · subst slash
    cases rest with
    | nil => exact apart
    | cons second rest => exact other
  · apply beginsLayout_cons _ slash
    unfold beginsLayout at other
    split at other
    · rename_i same
      exact absurd (List.cons.inj same).1 slash
    · exact other

theorem Layout.append {first second : List Char} (front : Layout first) (back : Layout second) :
    Layout (first ++ second) := by
  induction front with
  | nil => exact back
  | blank separates _ ih => exact .blank separates ih
  | comment inside _ ih =>
    rw [List.cons_append, List.cons_append, List.append_assoc, List.cons_append]
    exact .comment inside ih

theorem FinalLayout.behind {gap text : List Char} (layout : Layout gap) (final : FinalLayout text) :
    FinalLayout (gap ++ text) := by
  cases final with
  | closed back => exact .closed (layout.append back)
  | comment back inside =>
    rw [← List.append_assoc]
    exact .comment (layout.append back) inside

private theorem layoutLength_closed {body : List Char} (inside : '\n' ∉ body) (rest : List Char) :
    layoutLength true (body ++ '\n' :: rest) = body.length + 1 + layoutLength false rest := by
  induction body with
  | nil =>
    simp [layoutLength]
    omega
  | cons character body ih =>
    rw [List.mem_cons, not_or] at inside
    simp [layoutLength, Ne.symm inside.1, ih inside.2]
    omega

private theorem layoutLength_open {body : List Char} (inside : '\n' ∉ body) :
    layoutLength true body = body.length := by
  induction body with
  | nil => rfl
  | cons character body ih =>
    rw [List.mem_cons, not_or] at inside
    simp [layoutLength, Ne.symm inside.1, ih inside.2]

private theorem layoutLength_slashes (text : List Char) :
    layoutLength false ('/' :: '/' :: text) = layoutLength true text + 2 := by
  simp [layoutLength]

theorem Layout.length_append {gap : List Char} (layout : Layout gap) (rest : List Char) :
    layoutLength false (gap ++ rest) = gap.length + layoutLength false rest := by
  induction layout with
  | nil => simp
  | blank separates _ ih =>
    simp [layoutLength, separates, ih]
    omega
  | @comment body back inside _ ih =>
    rw [List.cons_append, List.cons_append, List.append_assoc, List.cons_append,
      layoutLength_slashes, layoutLength_closed inside, ih]
    simp
    omega

theorem layoutLength_eq_zero {text : List Char} (other : beginsLayout text = false) :
    layoutLength false text = 0 := by
  cases text with
  | nil => rfl
  | cons first rest =>
    unfold beginsLayout at other
    split at other
    · rename_i slash
      obtain ⟨rfl, rfl⟩ := List.cons.inj slash
      cases rest <;> simp_all [layoutLength, begins]
    · rename_i noSlash
      have different : first ≠ '/' := fun same => noSlash rest (by rw [same])
      have noBlank : first.isWhitespace = false := other
      simp [layoutLength, noBlank, different]

theorem FinalLayout.length {text : List Char} (final : FinalLayout text) :
    layoutLength false text = text.length := by
  cases final with
  | closed layout => simpa [layoutLength] using layout.length_append []
  | comment layout inside =>
    rw [layout.length_append, layoutLength_slashes, layoutLength_open inside]
    simp

/-- A text is all layout, or something else stands behind the layout at its beginning. -/
def Divides (text : List Char) : Prop :=
  FinalLayout text ∨ ∃ gap first rest, text = gap ++ first :: rest ∧ Layout gap ∧
    beginsLayout (first :: rest) = false

theorem Divides.behind {gap text : List Char} (layout : Layout gap) (divides : Divides text) :
    Divides (gap ++ text) := by
  rcases divides with final | ⟨inner, first, rest, rfl, back, other⟩
  · exact .inl (.behind layout final)
  · right
    refine ⟨gap ++ inner, first, rest, ?_, layout.append back, other⟩
    rw [List.append_assoc]

theorem divides (text : List Char) : Divides text := by
  -- A comment may be of any length, so the induction is on the length of the text.
  induction bound : text.length using Nat.strongRecOn generalizing text with
  | ind length ih =>
    subst bound
    cases text with
    | nil => exact .inl (.closed .nil)
    | cons first rest =>
      by_cases blank : first.isWhitespace = true
      · have behind : Divides rest := ih rest.length (by simp) rest rfl
        exact behind.behind (.blank blank .nil)
      · by_cases slashes : first = '/' ∧ rest.head? = some '/'
        · obtain ⟨rfl, second⟩ := slashes
          obtain ⟨body, rfl⟩ := List.head?_eq_some_iff.mp second
          by_cases closed : '\n' ∈ body
          · obtain ⟨inner, after, rfl, inside⟩ := List.eq_append_cons_of_mem closed
            have behind : Divides after := ih after.length (by simp; omega) after rfl
            have comment : Layout ('/' :: '/' :: (inner ++ ['\n'])) := .comment inside .nil
            simpa using behind.behind comment
          · exact .inl (.comment .nil closed)
        · right
          refine ⟨[], first, rest, rfl, .nil, ?_⟩
          by_cases slash : first = '/'
          · subst slash
            cases rest with
            | nil => rfl
            | cons second rest => simpa [beginsLayout] using slashes
          · exact beginsLayout_cons (by simpa using blank) slash rest

private theorem finalLayout_iff {text : List Char} :
    FinalLayout text ↔ layoutLength false text = text.length := by
  constructor
  · exact FinalLayout.length
  · intro all
    rcases divides text with final | ⟨gap, first, rest, rfl, layout, other⟩
    · exact final
    · simp [layout.length_append, layoutLength_eq_zero other] at all

/-- Layout is closed if a character behind it is no part of it. -/
theorem layout_iff {text : List Char} :
    Layout text ↔ layoutLength false (text ++ ['.']) = text.length := by
  constructor
  · intro layout
    rw [layout.length_append]
    rfl
  · intro all
    rcases divides text with final | ⟨gap, first, rest, rfl, layout, other⟩
    · cases final with
      | closed layout => exact layout
      | @comment front body layout inside =>
        have unclosed : '\n' ∉ body ++ ['.'] := by simpa using inside
        rw [List.append_assoc, layout.length_append, List.cons_append, List.cons_append,
          layoutLength_slashes, layoutLength_open unclosed] at all
        simp at all
    · have still : beginsLayout (first :: (rest ++ ['.'])) = false := beginsLayout_append other rfl
      rw [List.append_assoc, layout.length_append, List.cons_append,
        layoutLength_eq_zero still] at all
      simp at all

instance : DecidablePred Layout := fun _ => decidable_of_iff _ layout_iff.symm

instance : DecidablePred FinalLayout := fun _ => decidable_of_iff _ finalLayout_iff.symm

/-- Layout begins with characters of no class of lexemes, but for the slash. -/
theorem beginsLayout_class (accepted : Char → Bool) {first : Char} (found : accepted first = true)
    (others : [' ', '\t', '\r', '\n', '/'].any accepted = false)
    (rest : List Char) : beginsLayout (first :: rest) = false := by
  have outside (character : Char) (member : character ∈ [' ', '\t', '\r', '\n', '/']) :
      first ≠ character := by
    rintro rfl
    exact List.any_eq_false.mp others first member found
  apply beginsLayout_cons
  · simp [Char.isWhitespace, outside]
  · exact outside '/' (by simp)

private theorem Lexeme.Spelled.not_beginsLayout {text follow : List Char} {lexeme : Lexeme}
    (spelled : Spelled text lexeme) (ends : goesOn text follow = false) :
    beginsLayout (text ++ follow) = false := by
  cases spelled with
  | string inside => rfl
  | int leading each fits => exact beginsLayout_class Char.isDigit leading rfl _
  | double leading each behind some => exact beginsLayout_class Char.isDigit leading rfl _
  | word leading each => exact beginsLayout_class Lexeme.isWordStart leading rfl _
  | pair known =>
    unfold Kind.ofSymbolPair? at known
    split at known <;> first | rfl | cases known
  | @symbol first kind known =>
    by_cases slash : first = '/'
    · subst slash
      rw [Lexeme.goesOn_symbol (Lexeme.symbol_class known)] at ends
      cases follow with
      | nil => rfl
      | cons second rest => simpa [Kind.ofSymbolPair?, beginsLayout] using ends
    · exact beginsLayout_class
        (fun character => (Kind.ofSymbol? character).isSome && character != '/')
        (by simp [known, slash]) rfl _

private theorem not_slashes {first : Char} {rest : List Char}
    (other : beginsLayout (first :: rest) = false) : ¬ (first = '/' ∧ rest.head? = some '/') := by
  rintro ⟨rfl, second⟩
  obtain ⟨rest, rfl⟩ := List.head?_eq_some_iff.mp second
  cases other

/-- The token of a lexeme at a place. -/
def Lexeme.token (lexeme : Lexeme) (place : Position) (text : List Char) : Token :=
  ⟨lexeme.kind, lexeme.literal, place.line, place.span text⟩

/-- A lexeme with its text and the layout in front of it. -/
structure Piece where
  gap : List Char
  text : List Char
  lexeme : Lexeme

namespace Piece

/-- The source made up of pieces and the layout behind them. -/
def source : List Piece → List Char → List Char
  | [], final => final
  | piece :: rest, final => piece.gap ++ (piece.text ++ source rest final)

/-- The tokens of pieces from the given place on, with the one that ends the source. -/
def tokens (place : Position) : List Piece → List Char → List Token
  | [], final => [Token.endOfFile (place.advance final)]
  | piece :: rest, final =>
    let start := place.advance piece.gap
    piece.lexeme.token start piece.text :: tokens (start.advance piece.text) rest final

/-- Every piece is layout and a lexeme with which the text behind it does not go on. -/
inductive Arranged : List Piece → List Char → Prop where
  | final {text : List Char} (layout : FinalLayout text) : Arranged [] text
  | piece {first : Piece} {rest : List Piece} {text : List Char} (layout : Layout first.gap)
      (spelled : Spelled first.text first.lexeme)
      (ends : goesOn first.text (source rest text) = false) (behind : Arranged rest text) :
      Arranged (first :: rest) text

end Piece

namespace Token

open Scriptlet.Piece (Arranged)

theorem step_final {source : List Char} (place : Position) (final : FinalLayout source) :
    step place source = .finished (endOfFile (place.advance source)) := by
  simp [step, final.length]

/-- Behind layout, scanning reads a lexeme. -/
theorem step_layout {gap rest : List Char} {first : Char} (place : Position) (layout : Layout gap)
    (other : beginsLayout (first :: rest) = false) :
    step place (gap ++ first :: rest) =
      let start := place.advance gap
      match Lexeme.read first rest with
      | .error fault => .stuck ⟨fault, start.line, start.span (fault.extent (first :: rest))⟩
      | .ok lexeme =>
        let text := first :: rest.take lexeme.extent
        .found (lexeme.token start text) (start.advance text) (rest.drop lexeme.extent) := by
  have gone : layoutLength false (gap ++ first :: rest) = gap.length := by
    rw [layout.length_append, layoutLength_eq_zero other, Nat.add_zero]
  simp only [step, gone, List.take_left, List.drop_left]
  cases failed : Lexeme.read first rest with
  | ok lexeme => rfl
  | error fault => simp only [ScanError.ofText, Lexeme.ofText_of_read failed]

theorem step_piece {piece : Piece} {rest : List Char} (place : Position)
    (layout : Layout piece.gap) (spelled : Spelled piece.text piece.lexeme)
    (ends : goesOn piece.text rest = false) :
    let start := place.advance piece.gap
    step place (piece.gap ++ (piece.text ++ rest)) =
      .found (piece.lexeme.token start piece.text) (start.advance piece.text) rest := by
  have other := spelled.not_beginsLayout ends
  obtain ⟨gap, text, lexeme⟩ := piece
  cases text with
  | nil => exact absurd rfl spelled.ne_nil
  | cons first tail =>
    have extent : lexeme.extent = tail.length := spelled.extent
    rw [List.cons_append] at other ⊢
    simp [step_layout place layout other, Lexeme.read_of_spelled spelled ends, extent]

theorem piece_of_step {place next : Position} {source rest : List Char} {token : Token}
    (stepped : step place source = .found token next rest) :
    ∃ piece : Piece, source = piece.gap ++ (piece.text ++ rest) ∧ Layout piece.gap ∧
      Spelled piece.text piece.lexeme ∧ goesOn piece.text rest = false ∧
      token = piece.lexeme.token (place.advance piece.gap) piece.text ∧
      next = (place.advance piece.gap).advance piece.text := by
  rcases divides source with final | ⟨gap, first, behind, rfl, layout, other⟩
  · rw [step_final place final] at stepped
    cases stepped
  · rw [step_layout place layout other] at stepped
    cases success : Lexeme.read first behind with
    | error fault =>
      simp only [success] at stepped
      cases stepped
    | ok lexeme =>
      obtain ⟨tail, follow, rfl, spelled, ends⟩ :=
        Lexeme.heads_of_read success (not_slashes other)
      simp only [success, spelled.extent, List.take_left, List.drop_left] at stepped
      cases stepped
      exact ⟨⟨gap, first :: tail, lexeme⟩, rfl, layout, spelled, ends, rfl, rfl⟩

private theorem finalLayout_of_step {place : Position} {source : List Char} {last : Token}
    (stepped : step place source = .finished last) :
    FinalLayout source ∧ last = endOfFile (place.advance source) := by
  rcases divides source with final | ⟨gap, first, behind, rfl, layout, other⟩
  · rw [step_final place final] at stepped
    cases stepped
    exact ⟨final, rfl⟩
  · rw [step_layout place layout other] at stepped
    cases success : Lexeme.read first behind with
    | error fault =>
      simp only [success] at stepped
      cases stepped
    | ok lexeme =>
      simp only [success] at stepped
      cases stepped

/-- Scanning goes on as long as tokens are found. -/
theorem scanFrom_step (place : Position) (source : List Char) :
    scanFrom place source =
      match step place source with
      | .finished last => .ok [last]
      | .stuck error => .error error
      | .found token next rest => (scanFrom next rest).map (token :: ·) := by
  rw [scanFrom]
  split <;> simp_all

/-- Arranged pieces scan to their tokens. -/
theorem scanFrom_arranged {pieces : List Piece} {final : List Char} (place : Position)
    (arranged : Arranged pieces final) :
    scanFrom place (Piece.source pieces final) = .ok (Piece.tokens place pieces final) := by
  induction arranged generalizing place with
  | final layout =>
    rw [Piece.source, scanFrom_step, step_final place layout]
    rfl
  | piece layout spelled ends _ ih =>
    rw [Piece.source, scanFrom_step, step_piece place layout spelled ends]
    simp only [ih]
    rfl

/-- What scans is arranged in pieces. -/
theorem exists_arranged {place : Position} {source : List Char} {tokens : List Token}
    (success : scanFrom place source = .ok tokens) :
    ∃ pieces final, Arranged pieces final ∧ source = Piece.source pieces final ∧
      tokens = Piece.tokens place pieces final := by
  fun_induction scanFrom place source generalizing tokens with
  | case1 place source last stepped =>
    cases success
    obtain ⟨final, rfl⟩ := finalLayout_of_step stepped
    exact ⟨[], source, .final final, rfl, rfl⟩
  | case2 place source error stepped => cases success
  | case3 place source token next rest stepped shorter ih =>
    cases following : scanFrom next rest with
    | error error =>
      rw [following] at success
      cases success
    | ok others =>
      rw [following] at success
      cases success
      obtain ⟨pieces, final, arranged, rfl, rfl⟩ := ih following
      obtain ⟨piece, rfl, layout, spelled, ends, rfl, rfl⟩ := piece_of_step stepped
      exact ⟨piece :: pieces, final, .piece layout spelled ends arranged, rfl, rfl⟩

end Token

end Scriptlet
