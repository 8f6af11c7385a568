import Metamodel.File.Tree
import Metamodel.Markup.Reader
import Metamodel.Resolution

/-!
Loading documents from files and directories.

A directory is walked by name, and every document that the settings select is read into the same
model.
-/

namespace Metamodel

structure LoadSettings where
  /-- The extensions of documents. -/
  extensions : List String := ["ecore"]
  /-- What the relative path of a document must not begin with. -/
  skipped : List String := ["target/", ".git/"]
  deriving DecidableEq, Repr

namespace LoadSettings

/-- Whether the file with this path in a directory is a document to be loaded. -/
def selects (s : LoadSettings) (directory relative : Path) : Bool :=
  let shown := relative.text.map fun c => if c = '\\' then '/' else c
  let extension? := (directory ++ relative).getLast?.bind Path.extension?
  extension?.any (s.extensions.contains ·) && !s.skipped.any fun start => shown.startsWith start

/-- The selected files below a written directory with their relative paths, in the order of a walk.
A directory that does not exist has none. -/
def documents (s : LoadSettings) (tree : FileTree) (directory : String) :
    List (Path × List UInt8) :=
  match tree.locate directory with
  | .error _ => []
  | .ok path => (tree.under path).filter fun file => s.selects path file.1

end LoadSettings

namespace Model

/-- Reads the document in a file. -/
def loadFile (m : Model) (discriminator : String) (tree : FileTree) (path : String) :
    Except (Error × Model) (Model × ElementId) :=
  match tree.read path with
  | .error fault => .error (.file fault, m)
  | .ok document => m.readDocument discriminator document

/-- Reads documents one after the other. After an error the model keeps what has been read. -/
def readDocuments (discriminator : String) (m : Model) :
    List (List UInt8) → Except (Error × Model) (Model × List ElementId)
  | [] => .ok (m, [])
  | document :: rest => do
    let (m, root) ← m.readDocument discriminator document
    let (m, roots) ← readDocuments discriminator m rest
    return (m, root :: roots)

/-- Reads every selected document below a directory. -/
def loadDirectory (m : Model) (settings : LoadSettings) (discriminator : String) (tree : FileTree)
    (directory : String) : Except (Error × Model) (Model × List ElementId) :=
  m.readDocuments discriminator ((settings.documents tree directory).map Prod.snd)

/-- A new model with every selected document below a directory, resolved together. -/
def ofDirectory (settings : LoadSettings) (discriminator : String) (tree : FileTree)
    (directory : String) : Except Error (Model × List ElementId) :=
  match loadDirectory {} settings discriminator tree directory with
  | .error (error, _) => .error error
  | .ok (m, roots) =>
    match m.resolveAll roots with
    | .error (error, _) => .error error
    | .ok (m, _) => .ok (m, roots)

/-- A new model with the document in a file. -/
def ofFile (discriminator : String) (tree : FileTree) (path : String) :
    Except Error (Model × ElementId) :=
  match loadFile {} discriminator tree path with
  | .error (error, _) => .error error
  | .ok result => .ok result

end Model

end Metamodel
