import ClientGen.SortedMap
import ClientGen.SortedSet
import ClientGen.Text

/-!
# File trees

The files below a directory, as far as reading and writing them by path is concerned. In the tree
they stand under their normalized paths, the names on the way from the directory with single slashes
between them. A path leads from element to element, each step from one directory to the next.
Nothing outside of the tree can be read or written.
-/

namespace ClientGen

/-- Files and directories by normalized path. -/
structure FileTree where
  files : SortedMap String String := .empty
  directories : SortedSet String := .empty
  deriving DecidableEq, Repr, Inhabited

namespace FileTree

/-- The number of bytes that the name of a file or directory may have. -/
def longestName : Nat := 255

/-- The number of bytes that a path may have. -/
def longestPath : Nat := 4095

/-- The path of an element of a directory; the tree itself is the empty path. -/
def child (directory element : String) : String :=
  if directory.isEmpty then element else directory ++ "/" ++ element

/-- The path without its last element. -/
def parent (path : String) : String :=
  match (path.toList.reverse.dropWhile (· != '/')).reverse with
  | [] => ""
  | ['/'] => "/"
  | front => String.ofList front.dropLast

/-- The path is a directory. -/
def isDirectory (t : FileTree) (path : String) : Bool := path.isEmpty || t.directories.contains path

/-- The elements of a path that starts in the tree. -/
def elements? (path : String) : Option (List String) :=
  if path.startsWith "/" || path.toList.contains '\x00' || longestPath < path.utf8ByteSize then none
  else some (Text.splitAt '/' path)

/-- Where an element of a path leads from a directory: an empty element and a dot stay, two dots go
up, and a name goes down. -/
def step? (here element : String) : Option String :=
  if element.isEmpty || element == "." then some here
  else if element == ".." then if here.isEmpty then none else some (parent here)
  else if longestName < element.utf8ByteSize then none
  else some (child here element)

/-- Follows the elements of a path from a directory. Every element but the last must lead to a
directory. -/
def follow (t : FileTree) : String → List String → Option String
  | here, [] => some here
  | here, element :: rest =>
    if t.isDirectory here then
      match step? here element with
      | some next => t.follow next rest
      | none => none
    else none

/-- The text of the file at a path. -/
def read? (t : FileTree) (path : String) : Option String := do
  t.files.find? (← t.follow "" (← elements? path))

/-- The tree in which a path is a directory. -/
def withDirectory (t : FileTree) (path : String) : FileTree :=
  if t.isDirectory path then t else { t with directories := t.directories.insert path }

/-- Follows the elements of a path from a directory and makes the directories that are missing, up
to the first element that leads out of the tree or to a file. Tells where all elements lead, if
there is no such element. -/
def makeDirectories (t : FileTree) (here : String) : List String → FileTree × Option String
  | [] => (t, some here)
  | element :: rest =>
    match step? here element with
    | none => (t, none)
    | some next =>
      if t.files.contains next then (t, none) else (t.withDirectory next).makeDirectories next rest

/-- The tree with a further directory and those on the way to it, as far as they can be made. -/
def addDirectory (t : FileTree) (path : String) : FileTree :=
  match elements? path with
  | some elements => (t.makeDirectories "" elements).1
  | none => t

/-- Writes a file, with the directories on the way to it. A directory is in the way of a file, and a
file in the way of a directory. -/
def write? (t : FileTree) (path text : String) : Option FileTree := do
  let elements ← elements? path
  let (t, directory) := t.makeDirectories "" elements.dropLast
  let path ← step? (← directory) (← elements.getLast?)
  if t.isDirectory path then none else some { t with files := t.files.insert path text }

/-- The tree that holds the given files. -/
def ofFiles (files : List (String × String)) : FileTree :=
  files.foldl (fun t (path, text) => (t.write? path text).getD t) {}

end FileTree

end ClientGen
