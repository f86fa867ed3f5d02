import Scriptlet.CommandLine.Options
import Scriptlet.Program.Json
import Scriptlet.Program.SExpr
import Scriptlet.Session
import Scriptlet.Token.Lines

/-! What the program answers to its command line, given the files and the standard input. -/
namespace Scriptlet.CommandLine

open Scriptlet.Run

/-- A diagnostic on its way to the user. -/
inductive Report where
  | warning (notice : Warning)
  | error (cause : CompileError)

def Report.code : Report → String
  | warning _ => Warning.code
  | error cause => cause.code

def Report.message : Report → String
  | warning notice => notice.message
  | error cause => cause.message

/-- The exit status, the standard output, the diagnostics in order, why the standard input was not
read to its end, and the error that is no diagnostic. -/
structure Response where
  status : Nat
  output : String
  reports : List Report
  readError : Option String
  failure : Option String

namespace Response

def done (output : String) (reports : List Report) : Response := ⟨0, output, reports, none, none⟩

def rejected (error : CompileError) : Response := ⟨1, "", [.error error], none, none⟩

def misused : Response := ⟨2, "", [], none, none⟩

/-- List the tokens of the standard input. A line that is not UTF-8 is reported, but does not make
the listing fail. -/
def listInput (input : List UInt8) : Response :=
  let transcript := Transcript.ofStream input
  let reports := transcript.faults.map fun fault =>
    .error (.scan fault.error ⟨"stdin", fault.line⟩)
  { done transcript.output reports with
    readError := if transcript.complete then none else some Source.FileFault.notUtf8.message }

/-- List the tokens of a file. -/
def listTokens (files : Source.FileSystem) (path : String) : Response :=
  match files.readAt path with
  | .error fault =>
    ⟨1, "", [], none, some ("read source file '" ++ path ++ "': " ++ fault.message)⟩
  | .ok text =>
    match NamedSource.tokens ⟨path, text⟩ with
    | .error error => rejected error
    | .ok tokens => done (Transcript.listing tokens) []

def programText (format : Format) (program : Program) : String :=
  match format with
  | .sexp => program.sexp
  | .json => program.json ++ "\n"

/-- Show the program in a file with all it includes. -/
def showProgram (files : Source.FileSystem) (path : String) (format : Format) : Response :=
  match Source.load files path with
  | .error error => rejected error
  | .ok loaded => done (programText format loaded.program) (loaded.warnings.map .warning)

/-- Run a file. There is no response to a run that does not end in the steps allowed. -/
def run (files : Source.FileSystem) (steps : Nat) (path entry : String) : Option Response :=
  match Session.empty.loadFile files path with
  | (.error error, _) => some (rejected error)
  | (.ok warnings, session) =>
    let (result, after) := session.run Sink.accepting steps entry
    let reports := warnings.map .warning
    match result with
    | .ok _ => some (done after.output reports)
    | .error (.failed error) =>
      some ⟨1, after.output, reports, none, some (Run.Error.message error)⟩
    | .error .unfinished => none

def ofTask (files : Source.FileSystem) (input : List UInt8) (steps : Nat) :
    Task → Option Response
  | .listInput => some (listInput input)
  | .listTokens path => some (listTokens files path)
  | .showProgram path format => some (showProgram files path format)
  | .run path entry => run files steps path entry

/-- The response to a command line. -/
def ofArguments (files : Source.FileSystem) (input : List UInt8) (steps : Nat)
    (arguments : List String) : Option Response :=
  match Task.ofArguments arguments with
  | none => some misused
  | some task => ofTask files input steps task

end Response

end Scriptlet.CommandLine
