import Metamodel.Document.Event
import Metamodel.Document.Property
import Metamodel.Document.Tag

/-!
Building a package from the events of a document.

A construction holds the model, the elements that are open and, once the outermost one has been
closed, the root. A start creates an element, sets its attributes and puts it into the innermost
open element; `details` edits the annotation that it stands in and creates nothing. An event that
fails leaves a construction with the same open elements; an element that was created before the
failure stays in the model, detached.
-/

namespace Metamodel

/-- What is open. -/
inductive Frame
  | element (id : ElementId)
  | details
  deriving DecidableEq, Repr

structure Construction where
  model : Model
  /-- The open elements, innermost first. -/
  frames : List Frame := []
  /-- The outermost element once it has been closed. -/
  root : Option ElementId := none
  deriving DecidableEq

namespace Construction

def depth (c : Construction) : Nat := c.frames.length

/-- The tag that has no place under this parent. -/
def misplaced (c : Construction) (tag : String) (parent : Option ElementId) : Error :=
  .unexpectedElement tag ((parent.bind c.model.kind?).map Kind.name)

/-- The key and the value of a detail. The value may be missing, the key may not. -/
def detail (attributes : OrderedMap String) : Except Error (String × String) :=
  match attributes.keys.find? fun key => key ≠ "key" && key ≠ "value" with
  | some other => .error (.unexpectedAttribute other "details")
  | none =>
    match attributes.get? "key" with
    | none => .error (.invalidAttributeValue "key" "" "a detail key")
    | some key => .ok (key, (attributes.get? "value").getD "")

/-- Opens a detail of an annotation. -/
def openDetail (c : Construction) (attributes : OrderedMap String) (parent : Option ElementId) :
    Except Error Construction := do
  let some note := parent | .error (c.misplaced "details" none)
  let (key, value) ← detail attributes
  let model ← c.model.addDetail note key value
  return { c with model, frames := .details :: c.frames }

/-- The kind of the element that a start creates, and its slot unless it is the root. -/
def meaning (c : Construction) (discriminator tag : String) (attributes : OrderedMap String)
    (parent : Option ElementId) : Except Error (Kind × Option Slot) := do
  if tag = "EPackage" && parent.isNone then return (.ePackage, none)
  match ← TagMeaning.of discriminator tag attributes with
  | none => .error (c.misplaced tag parent)
  | some meaning =>
    if parent.isNone then .error (c.misplaced tag none)
    else return (meaning.kind, some meaning.slot)

/-- Opens an element of a known kind. -/
def openElement (c : Construction) (discriminator : String) (attributes : OrderedMap String)
    (parent : Option ElementId) (kind : Kind) (slot : Option Slot) :
    Except (Error × Construction) Construction :=
  let id := c.model.nextId
  match Element.applyAttributes discriminator attributes.entries (Element.blank id kind) with
  | .error (error, e) => .error (error, { c with model := c.model.append e })
  | .ok e =>
    let model := c.model.append e
    let opened (model : Model) : Construction := { c with model, frames := .element id :: c.frames }
    match parent, slot with
    | some parent, some slot =>
      match model.add slot parent id with
      | .error error => .error (error, { c with model })
      | .ok model => .ok (opened model)
    | _, _ => .ok (opened model)

/-- Gives an error together with the construction that it leaves. -/
def failing {α : Type} (c : Construction) : Except Error α → Except (Error × Construction) α
  | .ok a => .ok a
  | .error error => .error (error, c)

def handleOpening (c : Construction) (discriminator tag : String) (attributes : OrderedMap String) :
    Except (Error × Construction) Construction :=
  if c.root.isSome then .error (.unbalancedEvents (.startAfterRoot tag), c)
  else
    match c.frames with
    -- A detail holds nothing.
    | .details :: _ => .error (.unexpectedElement tag (some "details"), c)
    | frames =>
      let parent := match frames with
        | .element id :: _ => some id
        | _ => none
      if tag = "details" then c.failing (c.openDetail attributes parent)
      else
        match c.meaning discriminator tag attributes parent with
        | .error error => .error (error, c)
        | .ok (kind, slot) => c.openElement discriminator attributes parent kind slot

def handleClosing (c : Construction) : Except (Error × Construction) Construction :=
  match c.frames with
  | [] => .error (.unbalancedEvents .endWithoutStart, c)
  | [.element id] => .ok { c with frames := [], root := some id }
  | _ :: outer => .ok { c with frames := outer }

/-- Takes one event. -/
def handle (discriminator : String) (c : Construction) :
    Event → Except (Error × Construction) Construction
  | .opening tag attributes => c.handleOpening discriminator tag attributes
  | .closing => c.handleClosing

/-- The root, if everything that was opened has been closed. -/
def finish (c : Construction) : Except Error ElementId :=
  if c.frames.isEmpty then
    match c.root with
    | some root => .ok root
    | none => .error (.unbalancedEvents .noRoot)
  else .error (.unbalancedEvents (.leftOpen c.depth))

end Construction

/-- Adds the package that a sequence of events describes; `fault` is an error that comes after the
last event. The model is given back with the error too: it keeps what was created before. -/
def Model.build (m : Model) (discriminator : String) (events : List Event) (fault : Option Error) :
    Except (Error × Model) (Model × ElementId) :=
  match events.foldlM (Construction.handle discriminator) { model := m } with
  | .error (error, c) => .error (error, c.model)
  | .ok c =>
    match fault with
    | some error => .error (error, c.model)
    | none =>
      match c.finish with
      | .error error => .error (error, c.model)
      | .ok root => .ok (c.model, root)

end Metamodel
