/-! What loading sources needs to know of files: the canonical path behind a path and the
text behind a canonical path. Both stay the same while sources are loaded. -/
namespace Scriptlet.Source

/-- Why a file cannot be found or read. -/
inductive FileFault where
  | notFound
  | notADirectory
  | isADirectory
  | notUtf8
  | badPath
deriving DecidableEq, Repr

def FileFault.message : FileFault → String
  | notFound => "No such file or directory (os error 2)"
  | notADirectory => "Not a directory (os error 20)"
  | isADirectory => "Is a directory (os error 21)"
  | notUtf8 => "stream did not contain valid UTF-8"
  | badPath => "file name contained an unexpected NUL byte"

/-- A finite file system: how paths are resolved, and what reading each canonical path
gives. -/
structure FileSystem where
  canonical : String → Except FileFault String
  contents : List (String × Except FileFault String)

namespace FileSystem

/-- A file system of which only some paths are known. -/
def ofTables (resolved contents : List (String × Except FileFault String)) : FileSystem where
  canonical path := (resolved.lookup path).getD (.error .notFound)
  contents := contents

/-- Read the file at a canonical path. -/
def read (files : FileSystem) (path : String) : Except FileFault String :=
  (files.contents.lookup path).getD (.error .notFound)

/-- Read the file behind any path. -/
def readAt (files : FileSystem) (path : String) : Except FileFault String := do
  files.read (← files.canonical path)

end FileSystem

end Scriptlet.Source
