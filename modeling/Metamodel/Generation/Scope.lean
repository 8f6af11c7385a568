import Metamodel.Generation.Literal
import Metamodel.Generation.Settings
import Metamodel.Model.Standard

/-!
The designations of typed elements, as they are seen from one package.

A type of the package at hand goes by its name, and every other one by the path of modules that
leads to it. Only resolved links are followed; a symbolic one is an error.
-/

namespace Metamodel

structure Scope where
  model : Model
  settings : GenerationSettings := {}
  /-- The package whose module is being written. -/
  current : Option ElementId := none

namespace Scope

/-- The modules that lead to a package, outermost first. -/
def modulePath (s : Scope) (package : ElementId) : List String :=
  ((s.model.ownerChain package).map fun p => s.settings.naming.identifier (s.model.label p)).reverse

/-- The path of a generated type. -/
def path (s : Scope) (classifier : ElementId) : String :=
  let name := s.model.label classifier
  match s.model.containingPackage? classifier with
  | none => name
  | some package =>
    if s.current = some package then name
    else "::".intercalate ("crate" :: s.modulePath package ++ [name])

/-- Whether a classifier belongs to a package with the namespace URI of the standard package. Its
classes are not generated. -/
def isStandard (s : Scope) (classifier : ElementId) : Bool :=
  ((s.model.containingPackage? classifier).bind s.model.package?).bind (·.nsUri) =
    some Standard.nsUri

/-- The designation of one value of a classifier. -/
def ofClassifier (s : Scope) (classifier : ElementId) : Designation :=
  match s.model.kind? classifier with
  | some .eEnum => .enum (s.path classifier) classifier
  | some .eDataType =>
    match s.settings.types.dataTypes.find? (s.model.label classifier) with
    | some mapping => .scalar mapping.written mapping.kind
    | none => .object
  | some .eClass => if s.isStandard classifier then .object else .trait (s.path classifier)
  | _ => .object

/-- The classifier of a generic type. -/
def genericClassifier? (s : Scope) (generic : ElementId) : Except Error (Option ElementId) :=
  match ((s.model.body? generic).bind Body.genericType?).bind (·.classifier) with
  | none => .ok none
  | some link => some <$> link.requireTarget

/-- The classifier that types an element: its type, or else the classifier of its generic type. -/
def typeOf? (s : Scope) (t : TypedElement) : Except Error (Option ElementId) :=
  match t.eType, t.genericType with
  | some link, _ => some <$> link.requireTarget
  | none, some generic => s.genericClassifier? generic
  | none, none => .ok none

/-- The designation of an element whose type is `target`, if it has one. -/
def designationOf (s : Scope) (kind : Kind) (many : Bool) : Option ElementId → Designation
  | none =>
    if kind = .eOperation then .unit
    else if many then .many .object
    else .object
  | some target =>
    if many && s.model.label target = Standard.mapEntryClass then .stringMap
    else if many then .many (s.ofClassifier target)
    else s.ofClassifier target

/-- The designation of an attribute, a reference, an operation or a parameter. -/
def designation (s : Scope) (id : ElementId) : Except Error Designation :=
  match s.model.get? id with
  | none => .ok .object
  | some e =>
    match e.body.typed? with
    | none => .ok .object
    | some t => s.designationOf e.kind t.isMany <$> s.typeOf? t

/-- The type of the field for a feature. -/
def fieldType (s : Scope) (feature : ElementId) : Except Error FieldType := do
  let designation ← s.designation feature
  let literal := (s.model.feature? feature).bind (·.defaultValueLiteral)
  return ⟨designation, s.model.defaultValue? s.settings.types designation literal⟩

end Scope

end Metamodel
