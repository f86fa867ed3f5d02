import Scriptlet.Text.Position
import Scriptlet.Token.Kind
import Scriptlet.Value.Basic

/-! Tokens with their place in the source, and the two ways of showing them: in a listing
and in the wording of a message. -/
namespace Scriptlet

open Scriptlet.Text (Span)

/-- What the text of an identifier or a literal stands for. -/
inductive Literal where
  | identifier (name : String)
  | value (value : Value)
deriving DecidableEq

structure Token where
  kind : Kind
  literal : Option Literal
  line : Nat
  span : Span
deriving DecidableEq

/-- Listed numbers: an exponent from `10 ^ 16` on and below `10 ^ -4`, and otherwise a
digit behind the point. -/
def listedNumber : Number.Layout where
  positional := fun lead => -4 ≤ lead && lead < 16
  pointKept := true
  plusSign := false
  tie := .upward
  nan := "NaN"
  infinity := fun negative => Number.signed negative "inf"

def quoted (text : String) : String := "\"" ++ text ++ "\""

/-- A string of more than twenty characters is listed by its first seventeen. -/
def preview (text : String) : String :=
  if 20 < text.length then quoted (String.ofList (text.toList.take 17)) ++ " [...]"
  else quoted text

namespace Literal

def listing : Literal → String
  | identifier name => name
  | value (.string text) => preview text
  | value (.double number) => listedNumber.write number
  | value other => other.text

def wording : Literal → String
  | identifier name => name
  | value (.string text) => quoted text
  | value other => other.text

end Literal

namespace Token

/-- The name of an identifier; only the literal decides, not the kind. -/
def identifier? (token : Token) : Option String :=
  match token.literal with
  | some (.identifier name) => some name
  | _ => none

/-- How a token is listed: its kind and what it stands for. -/
def display (token : Token) : String :=
  match token.literal with
  | none => token.kind.name
  | some literal => token.kind.name ++ ": " ++ literal.listing

/-- How a message speaks of a token. -/
def describe (token : Token) : String :=
  match token.literal with
  | none => token.kind.text
  | some literal => literal.wording

end Token

end Scriptlet
