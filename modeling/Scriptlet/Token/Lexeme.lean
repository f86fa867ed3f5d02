import Scriptlet.Token.Basic

/-! Reading one lexeme. A lexeme says how many characters it takes up behind its first
one, so that the text in front of it and behind it are found by `take` and `drop`. -/
namespace Scriptlet

/-- Why no lexeme begins at some place. -/
inductive ScanFault where
  | unterminatedString
  | integerOutOfRange
  | unexpectedCharacter (character : Char)
  | unexpectedEnd
deriving DecidableEq, Repr

structure Lexeme where
  kind : Kind
  literal : Option Literal
  /-- The number of characters behind the first one. -/
  extent : Nat
deriving DecidableEq

namespace Lexeme

/-- Only `\n` and `\t` are escapes; any other backslash stands for itself. -/
def unescape : List Char → List Char
  | [] => []
  | '\\' :: 'n' :: rest => '\n' :: unescape rest
  | '\\' :: 't' :: rest => '\t' :: unescape rest
  | character :: rest => character :: unescape rest

/-- A string ends at the first quote, whatever stands before that quote. -/
def string (rest : List Char) : Except ScanFault Lexeme :=
  let body := rest.takeWhile (· ≠ '"')
  if body.length < rest.length then
    .ok ⟨.stringLiteral, some (.value (.string (String.ofList (unescape body)))), body.length + 1⟩
  else .error .unterminatedString

/-- The number that a run of decimal digits stands for. -/
def digitsValue (digits : List Char) : Nat :=
  digits.foldl (fun value digit => 10 * value + (digit.toNat - '0'.toNat)) 0

def double (whole fraction : List Char) : Lexeme :=
  ⟨.doubleLiteral,
    some (.value (.double (Number.ofDecimal (digitsValue (whole ++ fraction)) fraction.length))),
    whole.length + fraction.length⟩

/-- The largest 64 bit integer. -/
def largestInt : Nat := 9223372036854775807

def int (digits : List Char) : Except ScanFault Lexeme :=
  if digitsValue digits ≤ largestInt then
    .ok ⟨.intLiteral, some (.value (.int (Int64.ofNat (digitsValue digits)))), digits.length - 1⟩
  else .error .integerOutOfRange

/-- Digits are a whole number unless a point and another digit follow. -/
def number (first : Char) (rest : List Char) : Except ScanFault Lexeme :=
  let whole := first :: rest.takeWhile Char.isDigit
  match rest.dropWhile Char.isDigit with
  | '.' :: after =>
    let fraction := after.takeWhile Char.isDigit
    if fraction.isEmpty then int whole else .ok (double whole fraction)
  | _ => int whole

def isWordStart (character : Char) : Bool := character.isAlpha || character == '_'

def isWordPart (character : Char) : Bool := character.isAlphanum || character == '_'

/-- A word is a keyword, a truth value or an identifier. -/
def word (first : Char) (rest : List Char) : Lexeme :=
  let tail := rest.takeWhile isWordPart
  let text := String.ofList (first :: tail)
  match Kind.ofKeyword? text with
  | some .boolLiteral => ⟨.boolLiteral, some (.value (.bool (text == "true"))), tail.length⟩
  | some kind => ⟨kind, none, tail.length⟩
  | none => ⟨.identifier, some (.identifier text), tail.length⟩

/-- A symbol of two characters goes before one of one character. -/
def symbol (first : Char) (rest : List Char) : Except ScanFault Lexeme :=
  match rest.head?.bind (Kind.ofSymbolPair? first) with
  | some kind => .ok ⟨kind, none, 1⟩
  | none =>
    match Kind.ofSymbol? first with
    | some kind => .ok ⟨kind, none, 0⟩
    | none => .error (.unexpectedCharacter first)

/-- The lexeme at the beginning of a text; its first character decides its class. -/
def read (first : Char) (rest : List Char) : Except ScanFault Lexeme :=
  if first = '"' then string rest
  else if first.isDigit then number first rest
  else if isWordStart first then .ok (word first rest)
  else symbol first rest

end Lexeme

namespace ScanFault

/-- The fault of a text with which no lexeme begins: its first character decides, as it does
when lexemes are read. -/
def ofText : List Char → ScanFault
  | [] => unexpectedEnd
  | first :: _ =>
    if first = '"' then unterminatedString
    else if first.isDigit then integerOutOfRange
    else unexpectedCharacter first

def message : ScanFault → String
  | unterminatedString => "unterminated string"
  | integerOutOfRange => "integer literal out of range"
  | unexpectedCharacter character => "unexpected character '" ++ character.toString ++ "'"
  | unexpectedEnd => "unexpected end of input"

/-- The part of the remaining text that a fault points at: an open string runs to the end of
the source. -/
def extent (remaining : List Char) : ScanFault → List Char
  | unterminatedString => remaining
  | integerOutOfRange => remaining.takeWhile Char.isDigit
  | unexpectedCharacter _ => remaining.take 1
  | unexpectedEnd => []

end ScanFault

end Scriptlet
