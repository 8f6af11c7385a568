import Metamodel.Configuration.Data
import Metamodel.Configuration.Format
import Metamodel.Configuration.Overlay
import Metamodel.File.Tree

/-!
The settings that hold in a tree of files: the settings files that there are, put on top of each
other.

Two more sources lie outside the tree and are left out: the settings file of the user
(`ecore.toml` in the user's directory for settings), which comes after the files at the usual places,
and the variables of the environment whose names begin with `ECORE__`, which are put on top of
everything, also of the file that is asked for. So these are the settings that hold where there is
no such file and no such variable.
-/

namespace Metamodel

namespace Configuration

/-- The settings files that are read wherever they exist, in this order. -/
def locations : List String := ["ecore.toml", ".ecore.toml", "config/ecore.toml"]

/-- A file name with an extension added. What ends in two points names no file. -/
def withExtension? (name extension : String) : Option String :=
  match (Path.parts name).reverse.dropWhile Path.stays with
  | [] | ".." :: _ => none
  | parts => some ("/".intercalate parts.reverse ++ "." ++ extension)

/-- The names of the files that a name may stand for where there is no file of that name: one for
each extension. -/
def alternatives (name : String) : List String :=
  (Format.all.flatMap Format.extensions).filterMap (withExtension? name)

/-- The format of a file by its name. -/
def formatOf? (name : String) : Option Format :=
  ((Path.ofString name).getLast?.bind Path.extension?).bind Format.ofExtension?

/-- Takes a byte order mark off the front. -/
def withoutMark (text : String) : String :=
  match text.toList with
  | '\ufeff' :: rest => String.ofList rest
  | _ => text

/-- A file with a format, and its text. -/
def fileAt? (tree : FileTree) (name : String) : Option (Format × String) := do
  let content ← (tree.read name).toOption
  let text ← String.fromUTF8? ⟨content.toArray⟩
  return (← formatOf? name, withoutMark text)

/-- The settings file with this name, or else the first of its alternatives. A file of the name that
has no known format keeps the alternatives from being looked for. -/
def find? (tree : FileTree) (name : String) : Option (Format × String) :=
  match tree.read name with
  | .ok _ => fileAt? tree name
  | .error _ => (alternatives name).findSome? (fileAt? tree)

/-- The data in a settings file. It is a record. -/
def parse (name : String) (file : Format × String) : Except Error Data :=
  match file.1.read? file.2 with
  | some (.record fields) => .ok (.record fields)
  | _ => .error (.configuration (name ++ " is not well formed"))

/-- The data of all settings files in the tree: those at the usual places, and one that is asked
for. The settings file of the user, which lies outside the tree, would come between them. -/
def sources (tree : FileTree) (name? : Option String) : Except Error (List Data) := do
  let usual ← locations.filterMapM fun name => (find? tree name).mapM (parse name)
  match name? with
  | none => return usual
  | some name =>
    match find? tree name with
    | none => .error (.configuration ("configuration file \"" ++ name ++ "\" not found"))
    | some file => return usual ++ [← parse name file]

/-- The settings that hold in a tree of files, with one settings file that is asked for, where no
variable of the environment sets any. -/
def load (tree : FileTree) (name? : Option String) : Except Error Configuration := do
  let merged := (← sources tree name?).foldl Data.overlayFile (.record [])
  match ofData? .lenient merged with
  | some c => return c
  | none => .error (.configuration "the settings do not have the expected shape")

end Configuration

end Metamodel
