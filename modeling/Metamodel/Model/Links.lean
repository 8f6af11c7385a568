import Metamodel.Model.Basic

/-!
The fields that hold cross references, read and written uniformly as lists of links.

Results:
1. `kind_setLinks`: writing links never changes the kind.
-/

namespace Metamodel

/-- A field that holds cross references. -/
inductive LinkField
  | eType
  | superTypes
  | opposite
  | keys
  | exceptions
  | classifier
  | typeParameter
  | factoryInstance
  | references
  deriving DecidableEq, Repr, Inhabited

namespace LinkField

def all : List LinkField :=
  [.eType, .superTypes, .opposite, .keys, .exceptions, .classifier, .typeParameter,
    .factoryInstance, .references]

/-- The metaclass that has the field. -/
def declaredBy : LinkField → Metaclass
  | .eType => .eTypedElement
  | .superTypes => .eClass
  | .opposite | .keys => .eReference
  | .exceptions => .eOperation
  | .classifier | .typeParameter => .eGenericType
  | .factoryInstance => .ePackage
  | .references => .eNote

/-- The fields that a metaclass has, in the order in which they are resolved. -/
def ofMetaclass (c : Metaclass) : List LinkField := all.filter fun f => f.declaredBy = c

/-- Which kinds of element have the field. -/
def isOn (f : LinkField) (k : Kind) : Bool := k.isA f.declaredBy

end LinkField

namespace Body

/-- The links of a field, in order. -/
def links : LinkField → Body → List Link
  | .eType, b => (b.typed?.bind (·.eType)).toList
  | .superTypes, .eClass c => c.superTypes
  | .opposite, .eReference r => r.opposite.toList
  | .keys, .eReference r => r.keys
  | .exceptions, .eOperation o => o.exceptions
  | .classifier, .eGenericType g => g.classifier.toList
  | .typeParameter, .eGenericType g => g.typeParameter.toList
  | .factoryInstance, .ePackage p => p.factoryInstance.toList
  | .references, .eNote a => a.references
  | _, _ => []

/-- Replaces the links of a field; a field for one link takes the first. -/
def setLinks (field : LinkField) (links : List Link) (b : Body) : Body :=
  match field with
  | .eType => b.mapTyped fun t => { t with eType := links.head? }
  | .superTypes => b.mapClass fun c => { c with superTypes := links }
  | .opposite => b.mapReference fun r => { r with opposite := links.head? }
  | .keys => b.mapReference fun r => { r with keys := links }
  | .exceptions => b.mapOperation fun o => { o with exceptions := links }
  | .classifier => b.mapGenericType fun g => { g with classifier := links.head? }
  | .typeParameter => b.mapGenericType fun g => { g with typeParameter := links.head? }
  | .factoryInstance => b.mapPackage fun p => { p with factoryInstance := links.head? }
  | .references => b.mapNote fun a => { a with references := links }

@[simp]
theorem kind_setLinks (field : LinkField) (links : List Link) (b : Body) :
    (b.setLinks field links).kind = b.kind := by
  cases field <;> cases b <;> rfl

/-- Makes the link at a position of a field point to `target`. -/
def setTarget (field : LinkField) (index : Nat) (target : ElementId) (b : Body) : Body :=
  b.setLinks field ((b.links field).set index (.resolved target))

end Body

namespace Model

/-- The links of a field of an element, in order. -/
def links (m : Model) (field : LinkField) (id : ElementId) : List Link :=
  ((m.body? id).map (Body.links field)).getD []

def setLinks (m : Model) (field : LinkField) (id : ElementId) (links : List Link) : Model :=
  m.modifyBody id (Body.setLinks field links)

/-- The resolved supertypes of a class; symbolic ones are passed over. -/
def superTypes (m : Model) (id : ElementId) : List ElementId :=
  (m.links .superTypes id).filterMap Link.target?

end Model

end Metamodel
