import Scriptlet.Token.Basic

/-! Why a token list is no program. A fault names a cause; the error adds the token at which
it shows, which gives the line, the span and the wording of what was found. -/
namespace Scriptlet.Grammar

/-- What an identifier is needed for. -/
inductive NameUse where
  | function
  | parameter
  | localVariable
  | type
  | member
deriving DecidableEq, Repr

/-- Where a certain kind of token has to stand. -/
inductive Place where
  | afterInclude
  | afterFunctionName
  | afterParameterName
  | afterParameters
  | beforeFunctionBody
  | afterVariableName
  | afterVariableDeclaration
  | afterKeyword (keyword : Kind)
  | afterReturnValue
  | afterBlock
  | afterIfCondition
  | afterWhileCondition
  | afterForCondition
  | afterForClauses
  | afterExpression
  | afterArguments
deriving DecidableEq, Repr

inductive Fault where
  | expectedToken (kind : Kind) (place : Place)
  | expectedName (use : NameUse)
  | expectedExpression
  | expectedFileName
  | expectedInitializer
  | missingReturnType (function : String)
  | tooManyParameters
  | tooManyArguments
  | outsideLoop (keyword : Kind)
  | invalidTarget
  | nestedInclude
  | includeUnavailable
deriving DecidableEq, Repr

/-- The most parameters a function and the most arguments a call may have. -/
def maxArguments : Nat := 16

def NameUse.text : NameUse → String
  | function => "function name"
  | parameter => "parameter name"
  | localVariable => "variable name"
  | type => "type name"
  | member => "member name after '.'"

def Place.text : Place → String
  | afterInclude => "after include"
  | afterFunctionName => "after function name"
  | afterParameterName => "after parameter name"
  | afterParameters => "after parameters"
  | beforeFunctionBody => "before function body"
  | afterVariableName => "after variable name"
  | afterVariableDeclaration => "after variable declaration"
  | afterKeyword keyword => "after '" ++ keyword.text ++ "'"
  | afterReturnValue => "after return value"
  | afterBlock => "after block"
  | afterIfCondition => "after if condition"
  | afterWhileCondition => "after while condition"
  | afterForCondition => "after for condition"
  | afterForClauses => "after for clauses"
  | afterExpression => "after expression"
  | afterArguments => "after arguments"

def expected (what : String) (found : Token) : String :=
  "expected " ++ what ++ ", found '" ++ found.describe ++ "'"

/-- The wording of a fault that shows at a token. -/
def Fault.message (found : Token) : Fault → String
  | expectedToken kind place => expected ("'" ++ kind.text ++ "' " ++ place.text) found
  | expectedName use => expected use.text found
  | expectedExpression => expected "expression" found
  | expectedFileName => "expected file name after 'include'"
  | expectedInitializer => "expected '=' in for-loop initializer"
  | missingReturnType function => "function '" ++ function ++ "' is missing a return type"
  | tooManyParameters => "can't have more than " ++ Nat.repr maxArguments ++ " parameters"
  | tooManyArguments => "can't have more than " ++ Nat.repr maxArguments ++ " arguments"
  | outsideLoop keyword => "'" ++ keyword.text ++ "' outside of a loop"
  | invalidTarget => "invalid assignment target"
  | nestedInclude => "'include' is only allowed at the top level of a file"
  | includeUnavailable => "'include' is only available when parsing a file"

/-- A fault and the token at which it shows. -/
structure Error where
  fault : Fault
  token : Token
deriving DecidableEq

def Error.message (error : Error) : String := error.fault.message error.token

end Scriptlet.Grammar
