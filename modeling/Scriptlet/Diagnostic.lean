import Scriptlet.Grammar.Outline
import Scriptlet.Scope
import Scriptlet.Source.FileSystem

/-! What is reported about programs that cannot be run: errors in their text, files that
cannot be read, declarations that cannot be loaded, and warnings. -/
namespace Scriptlet

/-- A source text with the name under which it is reported. -/
structure NamedSource where
  name : String
  text : String
deriving DecidableEq, Repr

/-- What stands for the source of tokens that came without one. -/
def NamedSource.unnamed : NamedSource := ⟨"input", ""⟩

/-- Why a declaration cannot be loaded. -/
inductive LoadFault where
  | notAFunction
  | scope (fault : ScopeFault)
deriving DecidableEq, Repr

structure LoadError where
  fault : LoadFault
  line : Nat
deriving DecidableEq, Repr

inductive CompileError where
  | scan (error : ScanError) (source : NamedSource)
  | grammar (error : Grammar.Error) (source : NamedSource)
  | unreadable (path : String) (includedFrom : Option String) (fault : Source.FileFault)
  | load (error : LoadError)
deriving DecidableEq

/-- A file that includes itself. -/
inductive Warning where
  | selfInclusion (path : String)
deriving DecidableEq, Repr

def LoadFault.message : LoadFault → String
  | notAFunction => "top-level statements can only be function declarations"
  | scope fault => fault.message

def LoadError.help : String :=
  "top-level statements can only be function declarations or includes"

def Warning.message : Warning → String
  | selfInclusion path => "file '" ++ path ++ "' is including itself"

def Warning.code : String := "culebra::warning"

namespace CompileError

def code : CompileError → String
  | scan _ _ => "culebra::scan"
  | grammar _ _ => "culebra::parse"
  | unreadable _ _ _ => "culebra::include"
  | load _ => "culebra::load"

/-- A message with the kind of error and its line in front. -/
def atLine (kind : String) (line : Nat) (message : String) : String :=
  kind ++ " error at line " ++ Nat.repr line ++ ": " ++ message

def message : CompileError → String
  | scan error _ => atLine "scan" error.line error.message
  | grammar error _ => atLine "parse" error.token.line error.message
  | unreadable path none _ => "include error: cannot read '" ++ path ++ "'"
  | unreadable path (some origin) _ =>
    "include error: cannot read '" ++ path ++ "' (included from '" ++ origin ++ "')"
  | load error => atLine "load" error.line error.fault.message

end CompileError

/-- The tokens of a source, or the error with the source attached. -/
def NamedSource.tokens (source : NamedSource) : Except CompileError (List Token) :=
  (Token.scan source.text).mapError fun error => .scan error source

/-- The program in a source that includes nothing. -/
def NamedSource.program (source : NamedSource) : Except CompileError Program := do
  let tokens ← source.tokens
  (Grammar.parse tokens).mapError fun error => .grammar error source

end Scriptlet
