import Scriptlet.Grammar.Fault
import Scriptlet.Token.Scan

/-! Reading a token list from left to right. The token that ends the source is kept apart
from the tokens before it, so reading can never go past it. -/
namespace Scriptlet.Grammar

/-- The tokens still to be read and the token that ends the source. -/
structure Stream where
  ahead : List Token
  last : Token
deriving DecidableEq

namespace Stream

/-- The tokens in front of the first one that ends a source. -/
def ofTokens (tokens : List Token) : Stream where
  ahead := tokens.takeWhile fun token => token.kind ≠ .endOfFile
  last := (tokens.find? fun token => token.kind = .endOfFile).getD
    (Token.endOfFile Text.Position.start)

/-- The token to be read next. -/
def current (stream : Stream) : Token := stream.ahead.headD stream.last

/-- Go on to the next token; at the end, stay there. -/
def advance (stream : Stream) : Stream := { stream with ahead := stream.ahead.tail }

end Stream

/-- A parser reads some tokens and gives a result or an error. -/
abbrev Parser := StateT Stream (Except Error)

namespace Parser

def peek : Parser Token := do return (← get).current

/-- How many tokens are left before the end of the source. -/
def remaining : Parser Nat := do return (← get).ahead.length

def advance : Parser Unit := modify Stream.advance

/-- Fail at the token to be read next. -/
def fail {α : Type} (fault : Fault) : Parser α := do throw ⟨fault, ← peek⟩

def check (kind : Kind) : Parser Bool := do return (← peek).kind = kind

/-- Whether a name and a colon stand ahead, as in a declaration. -/
def atDeclaration : Parser Bool := do
  match (← get).ahead with
  | name :: mark :: _ => return name.kind = .identifier ∧ mark.kind = .colon
  | _ => return false

/-- Read a token of the given kind if one is next. -/
def take? (kind : Kind) : Parser (Option Token) := do
  let token ← peek
  if token.kind = kind then
    advance
    return some token
  else return none

def expect (kind : Kind) (place : Place) : Parser Unit := do
  match ← take? kind with
  | some _ => return ()
  | none => fail (.expectedToken kind place)

/-- Read a name. Any token that carries one will do. -/
def name (use : NameUse) : Parser String := do
  match (← peek).identifier? with
  | some text =>
    advance
    return text
  | none => fail (.expectedName use)

end Parser

end Scriptlet.Grammar
