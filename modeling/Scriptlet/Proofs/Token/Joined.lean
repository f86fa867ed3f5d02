import Scriptlet.Proofs.Token.Spacing

/-! Scanning a text behind another one. A line end separates any two texts: what is scanned in
front of it stays as it is, and behind it scanning begins anew, only further on. -/
namespace Scriptlet

open Scriptlet.Lexeme (Resembles goesOn)
open Scriptlet.Text (Position Span byteLength newlines)

namespace Text

/-- A place further on by so many bytes and lines. -/
def Position.moved (bytes lines : Nat) (place : Position) : Position :=
  ⟨place.offset + bytes, place.line + lines⟩

def Span.moved (bytes : Nat) (span : Span) : Span := ⟨span.offset + bytes, span.length⟩

@[simp] theorem Position.advance_moved (bytes lines : Nat) (place : Position) (text : List Char) :
    (place.moved bytes lines).advance text = (place.advance text).moved bytes lines := by
  simp only [Position.moved, Position.advance, Position.mk.injEq]
  omega

theorem Position.advance_eq_moved (place : Position) (text : List Char) :
    place.advance text = place.moved (byteLength text) (newlines text) := rfl

end Text

def Token.moved (bytes lines : Nat) (token : Token) : Token :=
  { token with line := token.line + lines, span := token.span.moved bytes }

def ScanError.moved (bytes lines : Nat) (error : ScanError) : ScanError :=
  { error with line := error.line + lines, span := error.span.moved bytes }

namespace Token

def Step.moved (bytes lines : Nat) : Step → Step
  | .finished last => .finished (last.moved bytes lines)
  | .stuck error => .stuck (error.moved bytes lines)
  | .found token next rest => .found (token.moved bytes lines) (next.moved bytes lines) rest

private theorem step_moved (bytes lines : Nat) (place : Position) (source : List Char) :
    step (place.moved bytes lines) source = (step place source).moved bytes lines := by
  simp only [step, Position.advance_moved]
  split
  · rfl
  · split <;> rfl

/-- Further on, the same tokens are scanned and the same errors met, all of them further on. -/
theorem scanFrom_moved (bytes lines : Nat) (place : Position) (source : List Char) :
    scanFrom (place.moved bytes lines) source =
      match scanFrom place source with
      | .ok tokens => .ok (tokens.map (moved bytes lines))
      | .error error => .error (error.moved bytes lines) := by
  fun_induction scanFrom place source with
  | case1 place source last stepped =>
    rw [scanFrom_step, step_moved, stepped]
    rfl
  | case2 place source error stepped =>
    rw [scanFrom_step, step_moved, stepped]
    rfl
  | case3 place source token next rest stepped shorter ih =>
    rw [scanFrom_step, step_moved, stepped]
    simp only [Step.moved, ih]
    cases scanFrom next rest <;> rfl

private theorem step_lead {lead : List Char} (place : Position) (layout : Layout lead)
    (source : List Char) : step place (lead ++ source) = step (place.advance lead) source := by
  simp only [step, layout.length_append, List.drop_length_add_append, List.take_length_add_append,
    Position.advance_append]

private theorem scanFrom_lead {lead : List Char} (place : Position) (layout : Layout lead)
    (source : List Char) :
    scanFrom place (lead ++ source) = scanFrom (place.advance lead) source := by
  rw [scanFrom_step, step_lead place layout, ← scanFrom_step]

end Token

private theorem FinalLayout.close {text : List Char} (final : FinalLayout text) :
    Layout (text ++ ['\n']) := by
  cases final with
  | closed layout => exact layout.append (.blank rfl .nil)
  | comment layout inside =>
    rw [List.append_assoc]
    exact layout.append (.comment inside .nil)

/-- To the lexeme in front of it, a text looks the same with a blank behind it. -/
theorem Lexeme.Resembles.closed {blank : Char} (separates : blank.isWhitespace = true)
    (follow more : List Char) : Resembles follow (follow ++ blank :: more) := by
  cases follow with
  | nil =>
    apply Resembles.apart
    rintro first ⟨⟩
    exact separates
  | cons first rest =>
    apply Resembles.alike
    cases rest with
    | nil =>
      rintro second ⟨⟩
      exact .inl separates
    | cons second rest => exact fun character head => .inr head

private theorem Piece.dropLast_tokens (place : Position) (piece : Piece) (rest : List Piece)
    (final : List Char) :
    (tokens place (piece :: rest) final).dropLast =
      piece.lexeme.token (place.advance piece.gap) piece.text ::
        (tokens ((place.advance piece.gap).advance piece.text) rest final).dropLast := by
  apply List.dropLast_cons_of_ne_nil
  cases rest <;> simp [tokens]

namespace Token

open Scriptlet.Piece (Arranged)

/-- Behind arranged pieces and a line end, scanning begins anew. -/
theorem scanFrom_behind {pieces : List Piece} {final : List Char} (place : Position)
    (arranged : Arranged pieces final) (more : List Char) :
    scanFrom place (Piece.source pieces final ++ '\n' :: more) =
      (scanFrom (place.advance (Piece.source pieces final ++ ['\n'])) more).map
        ((Piece.tokens place pieces final).dropLast ++ ·) := by
  induction arranged generalizing place with
  | @final text layout =>
    have closed : text ++ '\n' :: more = (text ++ ['\n']) ++ more := by simp
    rw [Piece.source, closed, scanFrom_lead place layout.close]
    cases scanFrom (place.advance (text ++ ['\n'])) more <;> rfl
  | @piece first rest text layout spelled ends behind ih =>
    have stops := Lexeme.goesOn_resembles
      (@Resembles.closed '\n' rfl (Piece.source rest text) more) ends
    have parts : Piece.source (first :: rest) text ++ '\n' :: more =
        first.gap ++ (first.text ++ (Piece.source rest text ++ '\n' :: more)) := by
      simp [Piece.source]
    have places : place.advance (Piece.source (first :: rest) text ++ ['\n']) =
        ((place.advance first.gap).advance first.text).advance
          (Piece.source rest text ++ ['\n']) := by
      simp [Piece.source, Position.advance_append]
    rw [parts, places, scanFrom_step, step_piece place layout spelled stops,
      Piece.dropLast_tokens]
    simp only [ih]
    cases scanFrom _ more <;> rfl

/-- A text behind another one and a line end is scanned as if it stood alone, further on. -/
theorem scan_joined {first : String} {tokens : List Token} (scanned : scan first = .ok tokens)
    (second : String) :
    scan (first ++ "\n" ++ second) =
      match scan second with
      | .ok others => .ok (tokens.dropLast ++
          others.map (moved (first.utf8ByteSize + 1) (1 + newlines first.toList)))
      | .error error =>
        .error (error.moved (first.utf8ByteSize + 1) (1 + newlines first.toList)) := by
  obtain ⟨pieces, final, arranged, rfl, rfl⟩ := arranged_of_scan scanned
  have parts : (String.ofList (Piece.source pieces final) ++ "\n" ++ second).toList =
      Piece.source pieces final ++ '\n' :: second.toList := by
    simp
  have further : Position.start.advance (Piece.source pieces final ++ ['\n']) =
      Position.start.moved ((String.ofList (Piece.source pieces final)).utf8ByteSize + 1)
        (1 + newlines (String.ofList (Piece.source pieces final)).toList) := by
    rw [Text.utf8ByteSize_ofList, String.toList_ofList, Position.advance_eq_moved]
    simp [newlines, Nat.add_comm]
    rfl
  rw [scan, parts, scanFrom_behind .start arranged, further, scanFrom_moved, scan]
  cases scanFrom .start second.toList <;> rfl

end Token

end Scriptlet
