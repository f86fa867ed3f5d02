import Scriptlet.Grammar.Statement

/-! The outline of a source: its top-level items in order, and the error at which reading
it stopped. A source without includes is a program by itself. -/
namespace Scriptlet.Grammar

open Scriptlet.Grammar.Parser

/-- An item at the top level of a source. -/
inductive Item where
  | inclusion (keyword : Token) (target : String)
  | declaration (statement : Stmt)

/-- The items in front of the first error, if there is one. -/
structure Outline where
  items : List Item
  error : Option Error

/-- The target of an include behind its keyword. -/
def includeTarget : Parser String := do
  let token ← peek
  match token.kind, token.literal with
  | .stringLiteral, some (.value (.string target)) =>
    advance
    expect .semicolon .afterInclude
    return target
  | _, _ => fail .expectedFileName

def item : Parser Item := do
  match ← take? .includeWord with
  | some keyword => return .inclusion keyword (← includeTarget)
  | none => return .declaration (← declaration)

namespace Outline

/-- At most `count` items. -/
def read : Nat → Stream → Outline
  | 0, _ => ⟨[], none⟩
  | count + 1, stream =>
    if stream.ahead.isEmpty then ⟨[], none⟩
    else
      match item.run stream with
      | .error error => ⟨[], some error⟩
      | .ok (first, rest) =>
        let others := read count rest
        ⟨first :: others.items, others.error⟩

/-- The outline of a token list up to the token that ends the source. -/
def ofTokens (tokens : List Token) : Outline :=
  let stream := Stream.ofTokens tokens
  read stream.ahead.length stream

/-- The declarations of an outline in which nothing can be included. -/
def declarations : List Item → Option Error → Except Error (List Stmt)
  | [], none => .ok []
  | [], some error => .error error
  | .inclusion keyword _ :: _, _ => .error ⟨.includeUnavailable, keyword⟩
  | .declaration statement :: rest, error => (declarations rest error).map (statement :: ·)

def toProgram (outline : Outline) : Except Error Program :=
  (declarations outline.items outline.error).map Program.mk

end Outline

/-- The program that a token list spells out. -/
def parse (tokens : List Token) : Except Error Program := (Outline.ofTokens tokens).toProgram

end Scriptlet.Grammar
