import Mathlib.Data.String.Basic
import Scriptlet.Text.Position

/-! Parts of a source text by their offsets. An offset is a boundary if no character goes
across it, and a stretch is placed by its line if both its ends are boundaries and the line
counts the line ends in front of it. -/
namespace Scriptlet.Text

/-- The part of a source between two offsets. -/
def slice (source : String) (start stop : Nat) : String :=
  String.Pos.Raw.extract source ⟨start⟩ ⟨stop⟩

/-- Whether a character begins at an offset, or the source ends there. -/
def IsBoundary (source : String) (offset : Nat) : Prop := String.Pos.Raw.IsValid source ⟨offset⟩

/-- The offset behind a stretch. -/
def Span.stop (span : Span) : Nat := span.offset + span.length

/-- A stretch of a source between two of its characters, and the line on which it begins. -/
structure Placed (source : String) (line : Nat) (span : Span) : Prop where
  start : IsBoundary source span.offset
  stop : IsBoundary source span.stop
  inside : span.stop ≤ source.utf8ByteSize
  line : line = 1 + newlines (slice source 0 span.offset).toList

private theorem byteLength_eq_utf8Len (text : List Char) :
    byteLength text = String.utf8Len text := by
  induction text with
  | nil => rfl
  | cons character rest ih => simp [ih, Nat.add_comm]

theorem utf8ByteSize_ofList (text : List Char) :
    (String.ofList text).utf8ByteSize = byteLength text := by
  rw [String.utf8ByteSize_ofList, byteLength_eq_utf8Len]

theorem byteLength_pos {text : List Char} (some : text ≠ []) : 0 < byteLength text := by
  cases text with
  | nil => exact absurd rfl some
  | cons character rest =>
    have wide := character.utf8Size_pos
    simp only [byteLength_cons]
    omega

/-- Between the offsets of a part stands that part. -/
theorem slice_append (before text after : List Char) :
    slice (String.ofList (before ++ (text ++ after))) (byteLength before)
      (byteLength before + byteLength text) = String.ofList text := by
  simp only [slice, byteLength_eq_utf8Len, ← List.append_assoc]
  exact String.extract_of_valid before text after

private theorem isBoundary_append (before after : List Char) :
    IsBoundary (String.ofList (before ++ after)) (byteLength before) := by
  apply String.Pos.Raw.isValid_iff_exists_append.mpr
  refine ⟨String.ofList before, String.ofList after, String.ofList_append, ?_⟩
  rw [String.rawEndPos_ofList, byteLength_eq_utf8Len]

/-- A part of a source is placed by the place behind the text in front of it. -/
theorem placed_append (before text after : List Char) :
    Placed (String.ofList (before ++ (text ++ after))) (Position.start.advance before).line
      ((Position.start.advance before).span text) := by
  have front : byteLength before = (Position.start.advance before).offset := by
    simp [Position.advance, Position.start]
  have back : byteLength (before ++ text) = ((Position.start.advance before).span text).stop := by
    simp [Span.stop, Position.span, ← front]
  refine ⟨?_, ?_, ?_, ?_⟩
  · rw [Position.span, ← front]
    exact isBoundary_append before (text ++ after)
  · rw [← back, ← List.append_assoc]
    exact isBoundary_append (before ++ text) after
  · rw [← back, utf8ByteSize_ofList, ← List.append_assoc, byteLength_append (before ++ text)]
    exact Nat.le_add_right _ _
  · have part := slice_append [] before (text ++ after)
    simp only [List.nil_append, byteLength_nil, Nat.zero_add] at part
    rw [Position.span, ← front, part, String.toList_ofList]
    rfl

end Scriptlet.Text
