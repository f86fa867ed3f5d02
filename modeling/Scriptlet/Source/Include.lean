import Scriptlet.Diagnostic
import Scriptlet.Source.Path

/-! Loading a file with everything it includes. Included declarations stand in place of
their directive; a file that has been visited before contributes nothing. Files are told
apart by their canonical paths and reported under the paths by which they were reached. -/
namespace Scriptlet.Source

/-- The canonical paths visited so far and the warnings given. -/
structure Visits where
  paths : List String
  warnings : List Warning
deriving DecidableEq, Repr

abbrev Loader := StateT Visits (Except CompileError)

/-- A program and what was noticed while its files were put together. -/
structure Loaded where
  program : Program
  warnings : List Warning

/-- A file to be read: the path by which it was reached, its canonical path, and the file
that includes it. -/
structure Reference where
  path : String
  canonical : String
  includedFrom : Option String
deriving DecidableEq, Repr

/-- Go through the items of one file and put in place what each directive includes, up to
the error at which reading the file stopped. -/
def splice (inclusion : String → Loader (List Stmt)) (source : NamedSource) :
    List Grammar.Item → Option Grammar.Error → Loader (List Stmt)
  | [], none => return []
  | [], some error => throw (.grammar error source)
  | .inclusion _ target :: rest, error => do
    let included ← inclusion target
    return included ++ (← splice inclusion source rest error)
  | .declaration statement :: rest, error => do
    return statement :: (← splice inclusion source rest error)

/-- The path that a target stands for in the file at a canonical path. -/
def targetPath (origin target : String) : String := Path.join (Path.directory origin) target

/-- Note that a file includes itself, under the path by which it does. -/
def Visits.selfInclusion (path : String) (visits : Visits) : Visits :=
  { visits with warnings := visits.warnings ++ [.selfInclusion path] }

/-- Note that a canonical path is visited. -/
def Visits.enter (canonical : String) (visits : Visits) : Visits :=
  { visits with paths := canonical :: visits.paths }

/-- The declarations of a file that is reached for the first time, and none later. -/
def visit (file : Reference → Loader (List Stmt)) (reference : Reference) :
    Loader (List Stmt) := do
  if (← get).paths.contains reference.canonical then return []
  else
    modify (Visits.enter reference.canonical)
    file reference

/-- What one directive of a file contributes. A file that includes itself gives a warning. -/
def inclusion (files : FileSystem) (file : Reference → Loader (List Stmt))
    (origin target : String) : Loader (List Stmt) := do
  let path := targetPath origin target
  match files.canonical path with
  | .error fault => throw (.unreadable path (some origin) fault)
  | .ok canonical =>
    modify fun visits => if canonical = origin then visits.selfInclusion path else visits
    visit file ⟨path, canonical, some origin⟩

/-- The declarations of a file, with at most `depth` files open at a time. -/
def fileUpTo (files : FileSystem) : Nat → Reference → Loader (List Stmt)
  | 0, reference => throw (.unreadable reference.path reference.includedFrom .notFound)
  | depth + 1, reference => do
    match files.read reference.canonical with
    | .error fault => throw (.unreadable reference.path reference.includedFrom fault)
    | .ok text =>
      let source : NamedSource := ⟨reference.path, text⟩
      let tokens ← source.tokens
      let outline := Grammar.Outline.ofTokens tokens
      splice (inclusion files (fileUpTo files depth) reference.canonical) source outline.items
        outline.error

/-- Load a file and all it includes. Each file is opened once, so no more files are open at
a time than there are, and one that cannot be read. -/
def load (files : FileSystem) (path : String) : Except CompileError Loaded := do
  match files.canonical path with
  | .error fault => throw (.unreadable path none fault)
  | .ok canonical =>
    let (declarations, visits) ←
      (fileUpTo files (files.contents.length + 1) ⟨path, canonical, none⟩).run ⟨[canonical], []⟩
    return ⟨⟨declarations⟩, visits.warnings⟩

/-- The targets of the directives in a text, as far as it can be read. -/
def targets (text : String) : List String :=
  match Token.scan text with
  | .error _ => []
  | .ok tokens =>
    (Grammar.Outline.ofTokens tokens).items.filterMap fun
      | .inclusion _ target => some target
      | .declaration _ => none

end Scriptlet.Source
