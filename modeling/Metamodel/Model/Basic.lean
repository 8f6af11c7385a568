import Metamodel.Element

/-!
A model: all elements of one or more package trees, addressed by position.

Results:
1. `get?_append`, `get?_modify`: what the two basic operations do to every element.
2. `ownerChain`: an element and its containers, nearest first; names, paths and enclosing packages
   are read off it.
-/

namespace Metamodel

structure Model where
  elements : Array Element := #[]
  deriving DecidableEq, Inhabited

namespace Model

def size (m : Model) : Nat := m.elements.size

def get? (m : Model) (id : ElementId) : Option Element := m.elements[id.index]?

/-- The id that the next created element gets. -/
def nextId (m : Model) : ElementId := ⟨m.size⟩

/-- Adds an element at the end. -/
def append (m : Model) (e : Element) : Model := ⟨m.elements.push e⟩

/-- Adds a detached element. -/
def create (m : Model) (kind : Kind) (name : Option String) : Model :=
  m.append { Element.blank m.nextId kind with name := name }

def modify (m : Model) (id : ElementId) (f : Element → Element) : Model :=
  ⟨m.elements.modify id.index f⟩

/-- Changes what the element carries. -/
def modifyBody (m : Model) (id : ElementId) (f : Body → Body) : Model :=
  m.modify id fun e => { e with body := f e.body }

theorem get?_append (m : Model) (e : Element) (id : ElementId) :
    (m.append e).get? id = if id = m.nextId then some e else m.get? id := by
  obtain ⟨i⟩ := id
  simp only [get?, append, nextId, size, Array.getElem?_push, ElementId.mk.injEq]

theorem get?_modify (m : Model) (id other : ElementId) (f : Element → Element) :
    (m.modify id f).get? other =
      if other = id then (m.get? id).map f else m.get? other := by
  obtain ⟨i⟩ := id
  obtain ⟨j⟩ := other
  simp only [get?, modify, Array.getElem?_modify, ElementId.mk.injEq]
  by_cases h : i = j
  · simp [h]
  · simp [h, Ne.symm h]

@[simp]
theorem size_append (m : Model) (e : Element) : (m.append e).size = m.size + 1 := by
  simp [size, append]

@[simp]
theorem size_modify (m : Model) (id : ElementId) (f : Element → Element) :
    (m.modify id f).size = m.size := by
  simp [size, modify]

def kind? (m : Model) (id : ElementId) : Option Kind := (m.get? id).map Element.kind

/-- The name, empty when there is none. -/
def label (m : Model) (id : ElementId) : String := ((m.get? id).map Element.label).getD ""

def parent? (m : Model) (id : ElementId) : Option ElementId := (m.get? id).bind (·.parent)

def body? (m : Model) (id : ElementId) : Option Body := (m.get? id).map (·.body)

def package? (m : Model) (id : ElementId) : Option EPackage := (m.body? id).bind Body.package?

def class? (m : Model) (id : ElementId) : Option EClass := (m.body? id).bind Body.class?

def enum? (m : Model) (id : ElementId) : Option EEnum := (m.body? id).bind Body.enum?

def typed? (m : Model) (id : ElementId) : Option TypedElement := (m.body? id).bind Body.typed?

def feature? (m : Model) (id : ElementId) : Option StructuralFeature :=
  (m.body? id).bind Body.feature?

def isPackage (m : Model) (id : ElementId) : Bool := m.kind? id = some .ePackage

def isClass (m : Model) (id : ElementId) : Bool := m.kind? id = some .eClass

/-- Packages without a container, in the order of their creation. -/
def roots (m : Model) : List ElementId :=
  (m.elements.toList.filter fun e => e.parent.isNone && e.kind = .ePackage).map (·.id)

/-- At most `fuel` steps of the container chain that starts at `id`. -/
def ownerChainWithin (m : Model) : Nat → ElementId → List ElementId
  | 0, _ => []
  | fuel + 1, id =>
    id :: ((m.parent? id).elim [] (m.ownerChainWithin fuel))

/-- The element, its container, that one's container and so on. No chain without a repetition is
longer than the model. -/
def ownerChain (m : Model) (id : ElementId) : List ElementId := m.ownerChainWithin m.size id

/-- The nearest package on the container chain, the element itself included. -/
def containingPackage? (m : Model) (id : ElementId) : Option ElementId :=
  (m.ownerChain id).find? m.isPackage

/-- How an element shows in a path: its name, else its kind in angle brackets. -/
def pathSegment (m : Model) (id : ElementId) : String :=
  (m.get? id).elim "" fun e => e.name.getD s!"<{e.kind.name}>"

/-- The dotted path of names from the outermost container. -/
def qualifiedName (m : Model) (id : ElementId) : String :=
  ".".intercalate ((m.ownerChain id).map m.pathSegment).reverse

/-- Kind and path, as error messages show an element. -/
def describe (m : Model) (id : ElementId) : String :=
  (m.kind? id).elim "" fun k => s!"{k.name} '{m.qualifiedName id}'"

/-- Whether the package has been through resolution. -/
def isResolved (m : Model) (id : ElementId) : Bool := (m.package? id).any (·.resolved)

/-- The text of an enum literal: its literal, else its name. -/
def literalText (m : Model) (id : ElementId) : String :=
  ((m.get? id).map Element.literalText).getD ""

/-- The first package, root or nested, with this namespace URI. -/
def packageByUri? (m : Model) (nsUri : String) : Option ElementId :=
  (m.elements.toList.find? fun e => e.body.package?.bind (·.nsUri) = some nsUri).map (·.id)

end Model

end Metamodel
