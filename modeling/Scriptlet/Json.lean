import Scriptlet.Number.Layout

/-! JSON values and their indented text: two blanks a level, one field or item a line. -/
namespace Scriptlet

inductive Json where
  | null
  | bool (truth : Bool)
  | int (number : Int)
  | double (number : Float)
  | string (text : String)
  | array (items : List Json)
  | object (fields : List (String × Json))

namespace Json

/-- JSON numbers: an exponent from `10 ^ 16` on and below `10 ^ -5`, with its sign, and
otherwise a digit behind the point. What is not finite has no number. -/
def number : Number.Layout where
  positional := fun lead => -5 ≤ lead && lead < 16
  pointKept := true
  plusSign := true
  tie := .toEven
  nan := "null"
  infinity := fun _ => "null"

def hexDigit (digit : Nat) : Char := (Nat.toDigits 16 digit).headD '0'

/-- Quotes, backslashes and control characters are escaped, all else stands for itself. -/
def escapeChar (character : Char) : List Char :=
  if character = '"' then ['\\', '"']
  else if character = '\\' then ['\\', '\\']
  else if character = '\x08' then ['\\', 'b']
  else if character = '\x0c' then ['\\', 'f']
  else if character = '\n' then ['\\', 'n']
  else if character = '\r' then ['\\', 'r']
  else if character = '\t' then ['\\', 't']
  else if character.toNat < 0x20 then
    ['\\', 'u', '0', '0', hexDigit (character.toNat / 16), hexDigit (character.toNat % 16)]
  else [character]

def quote (text : String) : String :=
  "\"" ++ String.ofList (text.toList.flatMap escapeChar) ++ "\""

/-- A line end and the blanks of a level. -/
def newLine (level : Nat) : String := "\n" ++ String.ofList (List.replicate (2 * level) ' ')

mutual

/-- The text of a value that stands at the given level. -/
def pretty (level : Nat) : Json → String
  | null => "null"
  | bool truth => if truth then "true" else "false"
  | int value => toString value
  | double value => number.write value
  | string text => quote text
  | array [] => "[]"
  | array (first :: rest) =>
    "[" ++ newLine (level + 1) ++ pretty (level + 1) first ++ prettyItems (level + 1) rest ++
      newLine level ++ "]"
  | object [] => "\x7b\x7d"
  | object ((key, value) :: rest) =>
    "\x7b" ++ newLine (level + 1) ++ quote key ++ ": " ++ pretty (level + 1) value ++
      prettyFields (level + 1) rest ++ newLine level ++ "\x7d"

def prettyItems (level : Nat) : List Json → String
  | [] => ""
  | item :: rest => "," ++ newLine level ++ pretty level item ++ prettyItems level rest

def prettyFields (level : Nat) : List (String × Json) → String
  | [] => ""
  | (key, value) :: rest =>
    "," ++ newLine level ++ quote key ++ ": " ++ pretty level value ++ prettyFields level rest

end

end Json

end Scriptlet
