import Scriptlet.CommandLine.Response

/-! The command line. Files are read before the response is worked out: the one that is
named, and those that can be reached from it by includes. -/
namespace Scriptlet.Main

open Scriptlet.Source

/-- The steps after which a run that has not ended is given up. -/
def stepLimit : Nat := 1000000000000000000

def faultOfCode (code : UInt32) : FileFault :=
  if code = 20 then .notADirectory else if code = 21 then .isADirectory else .notFound

def faultOf : IO.Error → FileFault
  | .noFileOrDirectory _ code _ => faultOfCode code
  | .inappropriateType _ code _ => faultOfCode code
  | .invalidArgument _ _ _ => .badPath
  | _ => .notFound

def attempt {α : Type} (action : IO α) : IO (Except FileFault α) := do
  try return .ok (← action) catch error => return .error (faultOf error)

def resolve (path : String) : IO (Except FileFault String) :=
  attempt do return (← IO.FS.realPath path).toString

def readText (path : String) : IO (Except FileFault String) := do
  let bytes ← attempt (IO.FS.readBinFile path)
  return bytes.bind fun content =>
    match String.fromUTF8? content with
    | some text => .ok text
    | none => .error .notUtf8

/-- What is known of the files so far. -/
structure Tables where
  resolved : List (String × Except FileFault String)
  contents : List (String × Except FileFault String)

/-- Find out about a path and about all that the file behind it includes. -/
partial def gather (tables : Tables) (path : String) : IO Tables := do
  if (tables.resolved.lookup path).isSome then return tables
  let canonical ← resolve path
  let tables := { tables with resolved := (path, canonical) :: tables.resolved }
  match canonical with
  | .error _ => return tables
  | .ok place =>
    if (tables.contents.lookup place).isSome then return tables
    let content ← readText place
    let tables := { tables with contents := (place, content) :: tables.contents }
    match content with
    | .error _ => return tables
    | .ok text =>
      (targets text).foldlM (fun known target => gather known (targetPath place target)) tables

partial def readAll (input : IO.FS.Stream) (read : ByteArray) : IO ByteArray := do
  let bytes ← input.read 65536
  if bytes.isEmpty then return read else readAll input (read ++ bytes)

def path? : CommandLine.Task → Option String
  | .listInput => none
  | .listTokens path => some path
  | .showProgram path _ => some path
  | .run path _ => some path

def respond (task : CommandLine.Task) : IO (Option CommandLine.Response) := do
  match path? task with
  | none =>
    let input ← readAll (← IO.getStdin) ByteArray.empty
    return CommandLine.Response.ofTask (FileSystem.ofTables [] []) input.toList stepLimit task
  | some path =>
    let tables ← gather ⟨[], []⟩ path
    let files := FileSystem.ofTables tables.resolved tables.contents
    return CommandLine.Response.ofTask files [] stepLimit task

def answer (arguments : List String) : IO (Option CommandLine.Response) :=
  match CommandLine.Task.ofArguments arguments with
  | none => return some .misused
  | some task => respond task

end Scriptlet.Main

def main (arguments : List String) : IO UInt32 := do
  match ← Scriptlet.Main.answer arguments with
  | none => return 1
  | some response =>
    IO.print response.output
    for report in response.reports do
      IO.eprintln (report.code ++ ": " ++ report.message)
    if let some message := response.readError then
      IO.eprintln ("read error: " ++ message)
    if let some message := response.failure then
      IO.eprintln ("error: " ++ message)
    return response.status.toUInt32
