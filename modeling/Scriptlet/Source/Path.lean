/-! Paths as texts. They are shown as they were written, so nothing is normalised here. -/
namespace Scriptlet.Source.Path

/-- A path relative to a directory; an absolute path stays as it is. -/
def join (directory path : String) : String :=
  if path.toList.head? = some '/' ∨ directory.isEmpty then path
  else if directory.toList.getLast? = some '/' then directory ++ path
  else directory ++ "/" ++ path

/-- The steps of a path, those without a name included. -/
def components (path : String) : List String := (path.toList.splitOn '/').map String.ofList

/-- The absolute path with the given names. -/
def absolute (names : List String) : String := "/" ++ "/".intercalate names

/-- The directory of a canonical path. -/
def directory (path : String) : String :=
  absolute ((components path).dropLast.filter fun name => !name.isEmpty)

end Scriptlet.Source.Path
