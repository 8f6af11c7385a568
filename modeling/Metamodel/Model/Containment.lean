import Metamodel.Error
import Metamodel.Model.Basic

/-!
Containment: the slots in which an element holds others, and the one operation that fills them.

`Model.add` checks kinds, then that the member is free, then that its name is; only then does it
write the slot, the member's container and the member's own note of its owner.

Results:
1. `add_ok_iff`: the exact condition under which an addition succeeds, and its result.
-/

namespace Metamodel

/-- A place in which an element holds other elements. -/
inductive Slot
  | annotations
  | classes
  | dataTypes
  | subpackages
  | attributes
  | references
  | operations
  | genericSuperTypes
  | parameters
  | typeParameters
  | literals
  | bounds
  | typeArguments
  | genericType
  | lowerBound
  | upperBound
  deriving DecidableEq, Repr, Inhabited

namespace Slot

def all : List Slot :=
  [.annotations, .classes, .dataTypes, .subpackages, .attributes, .references, .operations,
    .genericSuperTypes, .parameters, .typeParameters, .literals, .bounds, .typeArguments,
    .genericType, .lowerBound, .upperBound]

/-- Which kinds of element have the slot. -/
def isOn : Slot → Kind → Bool
  | .annotations, k => k.isA .eModelElement
  | .classes, k | .dataTypes, k | .subpackages, k => k = .ePackage
  | .attributes, k | .references, k | .operations, k | .genericSuperTypes, k => k = .eClass
  | .parameters, k => k = .eOperation
  | .typeParameters, k => k.isClassifier || k = .eOperation
  | .literals, k => k = .eEnum
  | .bounds, k => k = .eTypeParameter
  | .typeArguments, k | .lowerBound, k | .upperBound, k => k = .eGenericType
  | .genericType, k => k.isTyped

/-- How error messages name the elements that have the slot. -/
def ownerName : Slot → String
  | .annotations => "EModelElement"
  | .classes | .dataTypes | .subpackages => "EPackage"
  | .attributes | .references | .operations | .genericSuperTypes => "EClass"
  | .parameters => "EOperation"
  | .typeParameters => "EClassifier or EOperation"
  | .literals => "EEnum"
  | .bounds => "ETypeParameter"
  | .typeArguments | .lowerBound | .upperBound => "EGenericType"
  | .genericType => "ETypedElement"

/-- The metaclass of what the slot holds. -/
def memberClass : Slot → Metaclass
  | .annotations => .eNote
  | .classes => .eClass
  | .dataTypes => .eDataType
  | .subpackages => .ePackage
  | .attributes => .eAttribute
  | .references => .eReference
  | .operations => .eOperation
  | .parameters => .eParameter
  | .typeParameters => .eTypeParameter
  | .literals => .eEnumLiteral
  | .genericSuperTypes | .bounds | .typeArguments | .genericType | .lowerBound | .upperBound =>
    .eGenericType

/-- How error messages name what the slot holds. -/
def memberName : Slot → String
  | .annotations => "EAnnotation"
  | .classes => "EClass"
  | .dataTypes => "EDataType"
  | .subpackages => "EPackage"
  | .attributes => "EAttribute"
  | .references => "EReference"
  | .operations => "EOperation"
  | .parameters => "EParameter"
  | .typeParameters => "ETypeParameter"
  | .literals => "EEnumLiteral"
  | .genericSuperTypes | .bounds | .typeArguments | .genericType | .lowerBound | .upperBound =>
    "EGenericType"

theorem ofName?_memberName (s : Slot) : Metaclass.ofName? s.memberName = some s.memberClass := by
  cases s <;> rfl

end Slot

namespace EPackage

/-- The table of a slot that holds its members by name. -/
def table? (p : EPackage) : Slot → Option (OrderedMap ElementId)
  | .classes => some p.classes
  | .dataTypes => some p.dataTypes
  | .subpackages => some p.subpackages
  | _ => none

end EPackage

namespace Body

/-- The elements in a slot, in order. The annotations are held by the element itself. -/
def members : Slot → Body → List ElementId
  | .annotations, _ => []
  | .classes, .ePackage p => p.classes.values
  | .dataTypes, .ePackage p => p.dataTypes.values
  | .subpackages, .ePackage p => p.subpackages.values
  | .attributes, .eClass c => c.attributes
  | .references, .eClass c => c.references
  | .operations, .eClass c => c.operations
  | .genericSuperTypes, .eClass c => c.genericSuperTypes
  | .parameters, .eOperation o => o.parameters
  | .typeParameters, .eOperation o => o.typeParameters
  | .typeParameters, .eClass c => c.typeParameters
  | .typeParameters, .eDataType d => d.typeParameters
  | .typeParameters, .eEnum e => e.typeParameters
  | .literals, .eEnum e => e.literals
  | .bounds, .eTypeParameter t => t.bounds
  | .typeArguments, .eGenericType g => g.typeArguments
  | .lowerBound, .eGenericType g => g.lowerBound.toList
  | .upperBound, .eGenericType g => g.upperBound.toList
  | .genericType, .eAttribute a => a.genericType.toList
  | .genericType, .eReference r => r.genericType.toList
  | .genericType, .eOperation o => o.genericType.toList
  | .genericType, .eParameter p => p.genericType.toList
  | _, _ => []

/-- Puts `member` into a slot: lists grow at the end, tables get an entry under `name`, and a slot
for one element is overwritten. -/
def place (slot : Slot) (name : String) (member : ElementId) (b : Body) : Body :=
  match slot with
  | .annotations => b
  | .classes => b.mapPackage fun p => { p with classes := p.classes.insert name member }
  | .dataTypes => b.mapPackage fun p => { p with dataTypes := p.dataTypes.insert name member }
  | .subpackages => b.mapPackage fun p => { p with subpackages := p.subpackages.insert name member }
  | .attributes => b.mapClass fun c => { c with attributes := c.attributes ++ [member] }
  | .references => b.mapClass fun c => { c with references := c.references ++ [member] }
  | .operations => b.mapClass fun c => { c with operations := c.operations ++ [member] }
  | .genericSuperTypes =>
    b.mapClass fun c => { c with genericSuperTypes := c.genericSuperTypes ++ [member] }
  | .parameters => b.mapOperation fun o => { o with parameters := o.parameters ++ [member] }
  | .typeParameters =>
    let b := b.mapOperation fun o => { o with typeParameters := o.typeParameters ++ [member] }
    b.mapClassifier fun c => { c with typeParameters := c.typeParameters ++ [member] }
  | .literals =>
    match b with
    | .eEnum e => .eEnum { e with literals := e.literals ++ [member] }
    | other => other
  | .bounds =>
    match b with
    | .eTypeParameter t => .eTypeParameter { t with bounds := t.bounds ++ [member] }
    | other => other
  | .typeArguments =>
    b.mapGenericType fun g => { g with typeArguments := g.typeArguments ++ [member] }
  | .lowerBound => b.mapGenericType fun g => { g with lowerBound := some member }
  | .upperBound => b.mapGenericType fun g => { g with upperBound := some member }
  | .genericType => b.mapTyped fun t => { t with genericType := some member }

/-- Writes down the container in the kinds that note theirs. -/
def ownedBy (owner : ElementId) : Body → Body
  | .ePackage p => .ePackage { p with package := some owner }
  | .eClass c => .eClass { c with package := some owner }
  | .eDataType d => .eDataType { d with package := some owner }
  | .eEnum e => .eEnum { e with package := some owner }
  | .eEnumLiteral l => .eEnumLiteral { l with owner := some owner }
  | .eAttribute a => .eAttribute { a with containingClass := some owner }
  | .eReference r => .eReference { r with containingClass := some owner }
  | .eOperation o => .eOperation { o with containingClass := some owner }
  | .eParameter p => .eParameter { p with operation := some owner }
  | b => b

/-- The container that the element notes itself, for the kinds that do. -/
def noted? : Body → Option ElementId
  | .ePackage p => p.package
  | .eClass c => c.package
  | .eDataType d => d.package
  | .eEnum e => e.package
  | .eEnumLiteral l => l.owner
  | .eAttribute a => a.containingClass
  | .eReference r => r.containingClass
  | .eOperation o => o.containingClass
  | .eParameter p => p.operation
  | _ => none

end Body

namespace Element

/-- The elements in a slot, in order. -/
def members (slot : Slot) (e : Element) : List ElementId :=
  if slot = .annotations then e.annotations else e.body.members slot

/-- Puts `member` into a slot. -/
def place (slot : Slot) (name : String) (member : ElementId) (e : Element) : Element :=
  if slot = .annotations then { e with annotations := e.annotations ++ [member] }
  else { e with body := e.body.place slot name member }

/-- Records the container of an element. -/
def ownedBy (owner : ElementId) (e : Element) : Element :=
  { e with parent := some owner, body := e.body.ownedBy owner }

/-- Whether a slot that holds its members by name already has one of this name. -/
def hasMemberNamed (slot : Slot) (name : String) (e : Element) : Bool :=
  ((e.body.package?.bind (·.table? slot)).any (·.contains name))

end Element

namespace Model

/-- The element with this id, or the error that there is none. -/
def require (m : Model) (id : ElementId) : Except Error Element :=
  match m.get? id with
  | some e => .ok e
  | none => .error (.unknownElement id.index)

/-- Fails with `error` unless `condition` holds. -/
def demand (condition : Bool) (error : Error) : Except Error Unit :=
  if condition then .ok () else .error error

/-- The elements in a slot of an element. -/
def members (m : Model) (slot : Slot) (id : ElementId) : List ElementId :=
  ((m.get? id).map (Element.members slot)).getD []

/-- Writes a containment down in all places that show it: the slot, the member's container and the
member's own note of its owner. -/
def attach (m : Model) (slot : Slot) (owner member : ElementId) : Model :=
  let placed := m.modify owner (Element.place slot (m.label member) member)
  placed.modify member (Element.ownedBy owner)

/-- Makes `member` a member of a slot of `owner`. Nothing changes unless every check passes. -/
def add (m : Model) (slot : Slot) (owner member : ElementId) : Except Error Model := do
  let container ← m.require owner
  let content ← m.require member
  demand (slot.isOn container.kind) (.kindMismatch slot.ownerName (m.describe owner))
  demand (content.kind.isA slot.memberClass) (.kindMismatch slot.memberName (m.describe member))
  demand (owner ≠ member && content.parent.isNone) (.alreadyContained (m.describe member))
  demand (!container.hasMemberNamed slot content.label)
    (.duplicateName (m.describe owner) content.label)
  return m.attach slot owner member

/-- Gives an annotation a detail; a key that it already has gets the new value. -/
def addDetail (m : Model) (note : ElementId) (key value : String) : Except Error Model := do
  let e ← m.require note
  demand (e.kind = .eNote) (.kindMismatch "EAnnotation" (m.describe note))
  return m.modifyBody note
    (Body.mapNote fun a => { a with details := a.details.insert key value })

/-- An addition succeeds exactly when both elements exist, their kinds fit the slot, the member is
free and, in a slot that holds its members by name, its name is free too. -/
theorem add_ok_iff {m m' : Model} {slot : Slot} {owner member : ElementId} :
    m.add slot owner member = .ok m' ↔
      ∃ container content, m.get? owner = some container ∧ m.get? member = some content ∧
        slot.isOn container.kind ∧ content.kind.isA slot.memberClass ∧
        owner ≠ member ∧ content.parent = none ∧
        container.hasMemberNamed slot content.label = false ∧
        m' = m.attach slot owner member := by
  unfold add require demand
  cases hc : m.get? owner with
  | none => simp [bind, Except.bind]
  | some container =>
    cases hm : m.get? member with
    | none => simp [bind, Except.bind]
    | some content =>
      by_cases h1 : slot.isOn container.kind <;>
        by_cases h2 : content.kind.isA slot.memberClass <;>
        by_cases h3 : owner = member <;>
        by_cases h4 : content.parent = none <;>
        by_cases h5 : container.hasMemberNamed slot content.label <;>
        simp [bind, Except.bind, pure, Except.pure, h1, h2, h3, h4, h5]
      exact eq_comm

end Model

end Metamodel
