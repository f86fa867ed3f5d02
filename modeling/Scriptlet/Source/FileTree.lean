import Scriptlet.Source.FileSystem
import Scriptlet.Source.Path

/-! A tree of directories and files as a file system. A path is resolved step by step from
the root, and every step needs a directory to start from. -/
namespace Scriptlet.Source

inductive FileTree where
  | file (bytes : List UInt8)
  | directory (entries : List (String × FileTree))

namespace FileTree

def empty : FileTree := directory []

/-- Put an entry in place of the one of the same name, or behind all others. -/
def replaceEntry (name : String) (tree : FileTree) :
    List (String × FileTree) → List (String × FileTree)
  | [] => [(name, tree)]
  | entry :: rest =>
    if entry.1 = name then (name, tree) :: rest else entry :: replaceEntry name tree rest

/-- Place a tree at the end of a list of names, making the directories on the way. A
directory that is already there keeps its entries. -/
def place (added : FileTree) : List String → FileTree → FileTree
  | [], directory entries =>
    match added with
    | directory _ => directory entries
    | file bytes => file bytes
  | [], file _ => added
  | name :: rest, directory entries =>
    directory (replaceEntry name (place added rest ((entries.lookup name).getD empty)) entries)
  | name :: rest, file _ => directory [(name, place added rest empty)]

/-- The names and trees on the way to a place, the innermost first. -/
abbrev Trail := List (String × FileTree)

/-- The tree at the end of a trail. -/
def current (root : FileTree) (trail : Trail) : FileTree :=
  match trail with
  | [] => root
  | (_, tree) :: _ => tree

/-- Follow the steps of a path. An empty step and a dot stay, two dots go up, and the root is
above itself. -/
def follow (root : FileTree) : List String → Trail → Except FileFault Trail
  | [], trail => .ok trail
  | step :: rest, trail =>
    match current root trail with
    | file _ => .error .notADirectory
    | directory entries =>
      if step = "" ∨ step = "." then follow root rest trail
      else if step = ".." then follow root rest trail.tail
      else
        match entries.lookup step with
        | none => .error .notFound
        | some tree => follow root rest ((step, tree) :: trail)

/-- The absolute path without detours to what a path, taken from a working directory, leads
to. -/
def canonical (root : FileTree) (workingDirectory path : String) : Except FileFault String :=
  if path.isEmpty then .error .notFound
  else if path.toList.contains '\x00' then .error .badPath
  else
    (follow root (Path.components (Path.join workingDirectory path)) []).map fun trail =>
      Path.absolute (trail.reverse.map Prod.fst)

/-- What reading a file gives. -/
def decode (bytes : List UInt8) : Except FileFault String :=
  match String.fromUTF8? ⟨bytes.toArray⟩ with
  | some text => .ok text
  | none => .error .notUtf8

mutual

/-- All canonical paths of a tree, the names in front of it given, with what is read there. -/
def contentsBelow (names : List String) : FileTree → List (String × Except FileFault String)
  | file bytes => [(Path.absolute names, decode bytes)]
  | directory entries =>
    (Path.absolute names, .error .isADirectory) :: entryContents names entries

def entryContents (names : List String) :
    List (String × FileTree) → List (String × Except FileFault String)
  | [] => []
  | (name, tree) :: rest => contentsBelow (names ++ [name]) tree ++ entryContents names rest

end

/-- The file system of a tree, seen from a working directory. -/
def fileSystem (root : FileTree) (workingDirectory : String) : FileSystem where
  canonical := root.canonical workingDirectory
  contents := contentsBelow [] root

end FileTree

end Scriptlet.Source
