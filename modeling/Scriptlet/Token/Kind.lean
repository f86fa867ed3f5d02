/-! Kinds of tokens: the symbols, the classes of words and literals, the keywords, and the
end of the source. -/
namespace Scriptlet

inductive Kind where
  | leftParen
  | rightParen
  | leftBrace
  | rightBrace
  | leftBracket
  | rightBracket
  | comma
  | dot
  | minus
  | plus
  | percent
  | semicolon
  | slash
  | star
  | colon
  | doubleColon
  | bang
  | notEqual
  | equal
  | equalEqual
  | greater
  | greaterEqual
  | less
  | lessEqual
  | identifier
  | stringLiteral
  | intLiteral
  | doubleLiteral
  | boolLiteral
  | andWord
  | orWord
  | ifWord
  | elseWord
  | forWord
  | whileWord
  | breakWord
  | continueWord
  | returnWord
  | varWord
  | funcWord
  | includeWord
  | endOfFile
deriving DecidableEq, Repr

namespace Kind

def all : List Kind :=
  [leftParen, rightParen, leftBrace, rightBrace, leftBracket, rightBracket, comma, dot, minus,
    plus, percent, semicolon, slash, star, colon, doubleColon, bang, notEqual, equal, equalEqual,
    greater, greaterEqual, less, lessEqual, identifier, stringLiteral, intLiteral, doubleLiteral,
    boolLiteral, andWord, orWord, ifWord, elseWord, forWord, whileWord, breakWord, continueWord,
    returnWord, varWord, funcWord, includeWord, endOfFile]

/-- The name under which a token of this kind is listed. -/
def name : Kind → String
  | leftParen => "LeftParen"
  | rightParen => "RightParen"
  | leftBrace => "LeftBrace"
  | rightBrace => "RightBrace"
  | leftBracket => "LeftBracket"
  | rightBracket => "RightBracket"
  | comma => "Comma"
  | dot => "Dot"
  | minus => "Minus"
  | plus => "Plus"
  | percent => "Percent"
  | semicolon => "Semicolon"
  | slash => "Slash"
  | star => "Star"
  | colon => "Colon"
  | doubleColon => "DoubleColon"
  | bang => "Not"
  | notEqual => "NotEqual"
  | equal => "Equal"
  | equalEqual => "EqualEqual"
  | greater => "Greater"
  | greaterEqual => "GreaterEqual"
  | less => "Less"
  | lessEqual => "LessEqual"
  | identifier => "Identifier"
  | stringLiteral => "StringLit"
  | intLiteral => "IntLit"
  | doubleLiteral => "DoubleLit"
  | boolLiteral => "BoolLit"
  | andWord => "And"
  | orWord => "Or"
  | ifWord => "If"
  | elseWord => "Else"
  | forWord => "For"
  | whileWord => "While"
  | breakWord => "Break"
  | continueWord => "Continue"
  | returnWord => "Return"
  | varWord => "Var"
  | funcWord => "Func"
  | includeWord => "Include"
  | endOfFile => "Eof"

def ofName? (text : String) : Option Kind := all.find? fun kind => kind.name == text

/-- The text by which a message speaks of a token of this kind. -/
def text : Kind → String
  | leftParen => "("
  | rightParen => ")"
  | leftBrace => "\x7b"
  | rightBrace => "\x7d"
  | leftBracket => "["
  | rightBracket => "]"
  | comma => ","
  | dot => "."
  | minus => "-"
  | plus => "+"
  | percent => "%"
  | semicolon => ";"
  | slash => "/"
  | star => "*"
  | colon => ":"
  | doubleColon => "::"
  | bang => "!"
  | notEqual => "!="
  | equal => "="
  | equalEqual => "=="
  | greater => ">"
  | greaterEqual => ">="
  | less => "<"
  | lessEqual => "<="
  | identifier => "identifier"
  | stringLiteral => "string literal"
  | intLiteral => "integer literal"
  | doubleLiteral => "double literal"
  | boolLiteral => "boolean literal"
  | andWord => "and"
  | orWord => "or"
  | ifWord => "if"
  | elseWord => "else"
  | forWord => "for"
  | whileWord => "while"
  | breakWord => "break"
  | continueWord => "continue"
  | returnWord => "return"
  | varWord => "var"
  | funcWord => "func"
  | includeWord => "include"
  | endOfFile => "end of file"

/-- Words that are no identifiers. The operator `!` can also be spelled out, and both truth
values are literals. -/
def ofKeyword? : String → Option Kind
  | "and" => some andWord
  | "or" => some orWord
  | "not" => some bang
  | "true" => some boolLiteral
  | "false" => some boolLiteral
  | "if" => some ifWord
  | "else" => some elseWord
  | "for" => some forWord
  | "while" => some whileWord
  | "break" => some breakWord
  | "continue" => some continueWord
  | "return" => some returnWord
  | "var" => some varWord
  | "func" => some funcWord
  | "include" => some includeWord
  | _ => none

/-- Symbols of one character. -/
def ofSymbol? : Char → Option Kind
  | '(' => some leftParen
  | ')' => some rightParen
  | '{' => some leftBrace
  | '}' => some rightBrace
  | '[' => some leftBracket
  | ']' => some rightBracket
  | ',' => some comma
  | '.' => some dot
  | '-' => some minus
  | '+' => some plus
  | ';' => some semicolon
  | '/' => some slash
  | '*' => some star
  | '%' => some percent
  | '!' => some bang
  | '=' => some equal
  | '<' => some less
  | '>' => some greater
  | ':' => some colon
  | _ => none

/-- Symbols of two characters. -/
def ofSymbolPair? : Char → Char → Option Kind
  | '!', '=' => some notEqual
  | '=', '=' => some equalEqual
  | '>', '=' => some greaterEqual
  | '<', '=' => some lessEqual
  | ':', ':' => some doubleColon
  | _, _ => none

end Kind

end Scriptlet
