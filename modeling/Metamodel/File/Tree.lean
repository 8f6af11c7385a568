import Metamodel.Error
import Metamodel.OrderedMap

/-!
A tree of files, held as the files with their paths.

A directory exists if it holds a file, at any depth, or is listed as empty. Everything is read from
a value of this type, so that what is found depends on nothing else.

A written path is followed part by part, and every part but the last must lead to a directory. So a
path that leaves a directory which does not exist leads nowhere, whatever it would lead to without
that detour.
-/

namespace Metamodel

/-- The names that lead to a file or directory, outermost first. An absolute path begins with
`/`. -/
abbrev Path := List String

namespace Path

/-- Where a written path begins: at the root, or at the directory at hand. -/
def start (text : String) : Path := if text.startsWith "/" then ["/"] else []

/-- The parts of a written path. A slash at an end or beside another one leaves an empty part. -/
def parts (text : String) : List String := text.splitOn "/"

/-- Whether a part goes nowhere. -/
def stays (part : String) : Bool := part = "" || part = "."

/-- Goes one step: nowhere for a point, up for two points, unless there is nothing to leave, and
down otherwise. -/
def step (path : Path) (part : String) : Path :=
  if stays part || (part = ".." && path = ["/"]) then path
  else if part = ".." && path.getLast?.any (· ≠ "..") then path.dropLast
  else path ++ [part]

/-- The path that a text writes, if every directory on the way exists. -/
def ofString (text : String) : Path := (parts text).foldl step (start text)

/-- The path as text. -/
def text (path : Path) : String := "/".intercalate path

/-- The path of a file relative to a directory above it. -/
def relativeTo? (directory path : Path) : Option Path :=
  if directory.isPrefixOf path then some (path.drop directory.length) else none

/-- Paths in the order of a walk that goes through the entries of each directory by name. -/
def le (a b : Path) : Bool := (List.compareLex compare a b).isLE

/-- What follows the last point of a file name, unless nothing is before the point. -/
def extension? (name : String) : Option String :=
  match (name.splitOn ".").reverse with
  | last :: before => if before.isEmpty || before = [""] then none else some last
  | [] => none

end Path

structure FileTree where
  files : List (Path × List UInt8) := []
  /-- Directories that hold no file. -/
  emptyDirectories : List Path := []

namespace FileTree

/-- The content of a file. -/
def get? (t : FileTree) (path : Path) : Option (List UInt8) := t.files.lookup path

/-- Adds a file, or gives it new content. -/
def insert (t : FileTree) (path : Path) (content : List UInt8) : FileTree :=
  { t with files := t.files.filter (·.1 ≠ path) ++ [(path, content)] }

/-- A tree of files with their paths as text. -/
def ofFiles (files : List (String × List UInt8)) : FileTree :=
  files.foldl (fun t file => t.insert (Path.ofString file.1) file.2) {}

/-- Whether a path leads to a directory. The root, the directory at hand and those above it always
exist. -/
def isDirectory (t : FileTree) (path : Path) : Bool :=
  path = ["/"] || path.all (· = "..") ||
    (t.files.map Prod.fst ++ t.emptyDirectories.map (· ++ [""])).any fun entry =>
      entry.length > path.length && path.isPrefixOf entry

/-- Why a path leads to nothing: on the way to it there is a file, or nothing. -/
def missing (t : FileTree) (path : Path) : FileFault :=
  if t.files.any fun file => file.1.isPrefixOf path then .notDirectory else .notFound

/-- Goes one step from a directory. -/
def step (t : FileTree) (path : Path) (part : String) : Except FileFault Path :=
  if t.isDirectory path then .ok (path.step part) else .error (t.missing path)

/-- The path that parts lead to. Nothing may be there, but it is in a directory. -/
def follow (t : FileTree) (start : Path) (parts : List String) : Except FileFault Path :=
  parts.foldlM t.step start

/-- The path that a text leads to. -/
def locate (t : FileTree) (text : String) : Except FileFault Path :=
  t.follow (Path.start text) (Path.parts text)

/-- Reads the file at a written path. -/
def read (t : FileTree) (text : String) : Except FileFault (List UInt8) := do
  let path ← t.locate text
  if t.isDirectory path then .error .isDirectory
  else
    match t.get? path with
    | none => .error (t.missing path)
    | some content => .ok content

/-- Whether a written path leads to a directory. -/
def leadsToDirectory (t : FileTree) (text : String) : Bool :=
  match t.locate text with
  | .ok path => t.isDirectory path
  | .error _ => false

/-- Writes the file at a written path. Its directory must exist. A slash or points at the end of the
path ask for a directory. -/
def write (t : FileTree) (text : String) (content : List UInt8) : Except FileFault FileTree :=
  let parts := Path.parts text
  let slashes := (parts.reverse.takeWhile (· = "")).length
  match (parts.take (parts.length - slashes)).reverse with
  | [] => .error .isDirectory
  | name :: above => do
    -- The step that goes nowhere makes sure that the last of the parts above is a directory.
    let directory ← t.follow (Path.start text) (above.reverse ++ [""])
    if slashes > 0 || name = "." || name = ".." then .error .isDirectory
    else
      let path := directory ++ [name]
      if t.isDirectory path then .error .isDirectory else .ok (t.insert path content)

/-- The files below a directory with their relative paths, in the order of a walk. A file given in
place of a directory is itself all that is found, with an empty relative path. -/
def under (t : FileTree) (directory : Path) : List (Path × List UInt8) :=
  (t.files.filterMap fun (path, content) =>
    (Path.relativeTo? directory path).map fun relative => (relative, content)).mergeSort
      fun a b => Path.le a.1 b.1

/-- The files that are new or have new content, by path. -/
def changes (before after : FileTree) : List (Path × List UInt8) :=
  (after.files.filter fun (path, content) => before.get? path ≠ some content).mergeSort
    fun a b => Path.le a.1 b.1

end FileTree

end Metamodel
