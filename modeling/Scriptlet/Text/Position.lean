/-! Places in a source text. Offsets and lengths count the bytes of its UTF-8 form, lines
count from one. -/
namespace Scriptlet.Text

/-- A stretch of a source text. -/
structure Span where
  offset : Nat
  length : Nat
deriving DecidableEq, Repr

/-- The place in front of a character. -/
structure Position where
  offset : Nat
  line : Nat
deriving DecidableEq, Repr

def byteLength (text : List Char) : Nat :=
  text.foldr (fun character length => character.utf8Size + length) 0

def newlines (text : List Char) : Nat := text.count '\n'

/-- The place in front of a source text. -/
def Position.start : Position := ⟨0, 1⟩

/-- The place behind a text that begins at the given place. -/
def Position.advance (place : Position) (text : List Char) : Position :=
  ⟨place.offset + byteLength text, place.line + newlines text⟩

/-- The stretch that a text takes up from the given place on. -/
def Position.span (place : Position) (text : List Char) : Span :=
  ⟨place.offset, byteLength text⟩

@[simp] theorem byteLength_nil : byteLength [] = 0 := rfl

@[simp] theorem byteLength_cons (character : Char) (rest : List Char) :
    byteLength (character :: rest) = character.utf8Size + byteLength rest := rfl

@[simp] theorem byteLength_append (first second : List Char) :
    byteLength (first ++ second) = byteLength first + byteLength second := by
  induction first with
  | nil => simp
  | cons character rest ih => simp [ih, Nat.add_assoc]

@[simp] theorem Position.advance_nil (place : Position) : place.advance [] = place := by
  simp [Position.advance, newlines]

/-- Walking over two texts is walking over the one and then over the other. -/
theorem Position.advance_append (place : Position) (first second : List Char) :
    place.advance (first ++ second) = (place.advance first).advance second := by
  simp [Position.advance, newlines, Nat.add_assoc]

end Scriptlet.Text
