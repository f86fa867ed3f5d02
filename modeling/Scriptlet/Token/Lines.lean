import Scriptlet.Text.Blank
import Scriptlet.Token.Scan

/-! Listing the tokens of a byte stream line by line. Each line is scanned on its own; a
line that does not scan leaves a fault and no output, and a line that is not UTF-8 ends the
listing. -/
namespace Scriptlet

/-- A line that does not scan, and why. -/
structure LineFault where
  line : String
  error : ScanError
deriving DecidableEq, Repr

/-- What has been listed, which lines did not scan, and whether the stream was read to its
end. -/
structure Transcript where
  output : String
  faults : List LineFault
  complete : Bool
deriving DecidableEq

namespace Transcript

def empty : Transcript := ⟨"", [], true⟩

def listing (tokens : List Token) : String :=
  String.join (tokens.map fun token => token.display ++ "\n")

/-- What a single line contributes. -/
def ofLine (line : String) : Transcript :=
  if Text.isBlankLine line then empty
  else
    match Token.scan line with
    | .ok tokens => ⟨listing tokens, [], true⟩
    | .error error => ⟨"", [⟨line, error⟩], true⟩

/-- A listing followed by another one; nothing follows an incomplete one. -/
def append (first second : Transcript) : Transcript :=
  if first.complete then
    ⟨first.output ++ second.output, first.faults ++ second.faults, second.complete⟩
  else first

def decode? (bytes : List UInt8) : Option String := String.fromUTF8? ⟨bytes.toArray⟩

/-- The line in front of a line end; a carriage return before that end is no part of it. -/
def lineBefore (bytes : List UInt8) : List UInt8 :=
  if bytes.getLast? = some 13 then bytes.dropLast else bytes

/-- The lines of a stream: each line end closes a line, and what follows the last one is a
line as well. -/
def lines (bytes : List UInt8) : List (List UInt8) :=
  let pieces := bytes.splitOn 10
  pieces.dropLast.map lineBefore ++ [pieces.getLastD []]

def ofBytes (line : List UInt8) : Transcript :=
  match decode? line with
  | some text => ofLine text
  | none => ⟨"", [], false⟩

/-- The listing of a whole stream. -/
def ofStream (bytes : List UInt8) : Transcript :=
  (lines bytes).foldr (fun line rest => (ofBytes line).append rest) empty

end Transcript

end Scriptlet
