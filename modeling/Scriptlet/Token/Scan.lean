import Scriptlet.Token.Lexeme

/-! Scanning: a source text is layout and lexemes in turn, and ends with a token of its
own. Scanning stops at the first place where no lexeme begins. -/
namespace Scriptlet

open Scriptlet.Text (Position Span)

structure ScanError where
  fault : ScanFault
  line : Nat
  span : Span
deriving DecidableEq, Repr

namespace ScanError

def message (error : ScanError) : String := error.fault.message

/-- The error for a text with which no lexeme begins. -/
def ofText (place : Position) (remaining : List Char) : ScanError :=
  let fault := ScanFault.ofText remaining
  ⟨fault, place.line, place.span (fault.extent remaining)⟩

end ScanError

/-- How many characters at the beginning of a text are layout: blanks, tabs, line ends, and
comments from `//` up to the end of the line. -/
def layoutLength (inComment : Bool) : List Char → Nat
  | [] => 0
  | character :: rest =>
    if inComment then layoutLength (character ≠ '\n') rest + 1
    else if character.isWhitespace then layoutLength false rest + 1
    else if character = '/' ∧ rest.head? = some '/' then layoutLength true rest + 1
    else 0

namespace Token

/-- The token that ends every source. -/
def endOfFile (place : Position) : Token := ⟨.endOfFile, none, place.line, ⟨place.offset, 0⟩⟩

/-- What scanning meets next: the end of the source, a place where no lexeme begins, or a
token with the text behind it. -/
inductive Step where
  | finished (last : Token)
  | stuck (error : ScanError)
  | found (token : Token) (place : Position) (rest : List Char)

/-- Skip layout and read one lexeme of a text that begins at the given place. -/
def step (place : Position) (source : List Char) : Step :=
  let gap := layoutLength false source
  let start := place.advance (source.take gap)
  match source.drop gap with
  | [] => .finished (endOfFile (place.advance source))
  | first :: rest =>
    match Lexeme.read first rest with
    | .error _ => .stuck (.ofText start (first :: rest))
    | .ok lexeme =>
      let text := first :: rest.take lexeme.extent
      .found ⟨lexeme.kind, lexeme.literal, start.line, start.span text⟩ (start.advance text)
        (rest.drop lexeme.extent)

/-- A token takes up at least one character. -/
theorem step_shorter {place next : Position} {source rest : List Char} {token : Token}
    (stepped : step place source = .found token next rest) : rest.length < source.length := by
  simp only [step] at stepped
  split at stepped
  · contradiction
  · rename_i first tail remaining
    have lengths := congrArg List.length remaining
    simp only [List.length_drop, List.length_cons] at lengths
    split at stepped
    · contradiction
    · injection stepped with _ _ same
      subst same
      simp only [List.length_drop]
      omega

/-- Scan a text that begins at the given place. -/
def scanFrom (place : Position) (source : List Char) : Except ScanError (List Token) :=
  match stepped : step place source with
  | .finished last => .ok [last]
  | .stuck error => .error error
  | .found token next rest =>
    have := step_shorter stepped
    (scanFrom next rest).map (token :: ·)
termination_by source.length

/-- The tokens of a source text, with the one that ends it. -/
def scan (source : String) : Except ScanError (List Token) :=
  scanFrom Position.start source.toList

end Token

end Scriptlet
