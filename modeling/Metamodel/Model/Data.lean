import Metamodel.Data.Record
import Metamodel.Model.Basic

/-!
Models as data.

An element is one flat record: its own fields, its kind, and the fields of what it carries. Shared
parts (`classifier`, `data_type`, `feature`, `typed`) are nested records. An attribute has two
fields called `id`, its element id and its identifier flag, so its record cannot be read back.
-/

namespace Metamodel

namespace Kind

/-- How a kind is written in data. -/
def tag : Kind → String
  | .ePackage => "package"
  | .eClass => "class"
  | .eDataType => "data_type"
  | .eEnum => "enum"
  | .eEnumLiteral => "enum_literal"
  | .eAttribute => "attribute"
  | .eReference => "reference"
  | .eOperation => "operation"
  | .eParameter => "parameter"
  | .eTypeParameter => "type_parameter"
  | .eNote => "annotation"
  | .eGenericType => "generic_type"

/-- A kind is written as its tag or as its position in the list of kinds. -/
def ofData? : Data → Option Kind
  | .text t => all.find? fun k => k.tag = t
  | .int i => if 0 ≤ i then all[i.toNat]? else none
  | _ => none

end Kind

namespace ElementId

def toData (id : ElementId) : Data := .int id.index

def ofData? (d : Data) : Option ElementId := (d.natBelow? (Nat.pow 2 32)).map ElementId.mk

end ElementId

namespace Link

def toData : Link → Data
  | .symbolic uri => .record [("symbolic", .text uri)]
  | .resolved id => .record [("resolved", id.toData)]

def ofData? : Data → Option Link
  | .record [("symbolic", d)] => d.text?.map .symbolic
  | .record [("resolved", d)] => (ElementId.ofData? d).map .resolved
  | _ => none

end Link

/-- A list of ids. -/
def idsToData (ids : List ElementId) : Data := .list (ids.map ElementId.toData)

/-- A list of links. -/
def linksToData (links : List Link) : Data := .list (links.map Link.toData)

/-- A table of ids by name. -/
def tableToData (table : OrderedMap ElementId) : Data :=
  .record (table.entries.map fun (name, id) => (name, id.toData))

/-- A table of values by name; a repeated name keeps its place and gets the last value. -/
def tableOfData? {α : Type} (read : Data → Option α) : Data → Option (OrderedMap α)
  | .record fields => do
    let entries ← fields.mapM fun (name, d) => (read d).map fun v => (name, v)
    return OrderedMap.ofList entries
  | _ => none

def idsOfData? : Data → Option (List ElementId) := Data.list? ElementId.ofData?

def linksOfData? : Data → Option (List Link) := Data.list? Link.ofData?

namespace Classifier

def shape : List (String × Presence) :=
  [("instance_class_name", .optional), ("instance_type_name", .optional),
    ("type_parameters", .defaulted), ("package", .optional)]

def toData (c : Classifier) : Data :=
  .record <|
    Data.field? "instance_class_name" (c.instanceClassName.map .text) ++
    Data.field? "instance_type_name" (c.instanceTypeName.map .text) ++
    Data.nonEmpty "type_parameters" (c.typeParameters.map ElementId.toData) ++
    Data.field? "package" (c.package.map ElementId.toData)

def ofData? (d : Data) : Option Classifier := do
  let r ← Record.ofData? shape d
  return {
    instanceClassName := ← r.optional "instance_class_name" Data.text?
    instanceTypeName := ← r.optional "instance_type_name" Data.text?
    typeParameters := ← r.defaulted "type_parameters" [] idsOfData?
    package := ← r.optional "package" ElementId.ofData? }

end Classifier

namespace TypedElement

def shape : List (String × Presence) :=
  [("e_type", .optional), ("generic_type", .optional), ("lower_bound", .required),
    ("upper_bound", .required), ("ordered", .required), ("unique", .required)]

def toData (t : TypedElement) : Data :=
  .record <|
    Data.field? "e_type" (t.eType.map Link.toData) ++
    Data.field? "generic_type" (t.genericType.map ElementId.toData) ++
    [("lower_bound", .int t.lowerBound.toInt), ("upper_bound", .int t.upperBound.toInt),
      ("ordered", .bool t.ordered), ("unique", .bool t.unique)]

def ofData? (d : Data) : Option TypedElement := do
  let r ← Record.ofData? shape d
  return {
    eType := ← r.optional "e_type" Link.ofData?
    genericType := ← r.optional "generic_type" ElementId.ofData?
    lowerBound := ← r.required "lower_bound" Data.int32?
    upperBound := ← r.required "upper_bound" Data.int32?
    ordered := ← r.required "ordered" Data.bool?
    unique := ← r.required "unique" Data.bool? }

end TypedElement

namespace StructuralFeature

def shape : List (String × Presence) :=
  [("typed", .required), ("changeable", .required), ("default_value_literal", .optional),
    ("derived", .required), ("transient", .required), ("unsettable", .required),
    ("volatile", .required), ("containing_class", .optional)]

def toData (f : StructuralFeature) : Data :=
  .record <|
    [("typed", f.toTypedElement.toData), ("changeable", .bool f.changeable)] ++
    Data.field? "default_value_literal" (f.defaultValueLiteral.map .text) ++
    [("derived", .bool f.derived), ("transient", .bool f.transient),
      ("unsettable", .bool f.unsettable), ("volatile", .bool f.volatile)] ++
    Data.field? "containing_class" (f.containingClass.map ElementId.toData)

def ofData? (d : Data) : Option StructuralFeature := do
  let r ← Record.ofData? shape d
  return {
    toTypedElement := ← r.required "typed" TypedElement.ofData?
    changeable := ← r.required "changeable" Data.bool?
    defaultValueLiteral := ← r.optional "default_value_literal" Data.text?
    derived := ← r.required "derived" Data.bool?
    transient := ← r.required "transient" Data.bool?
    unsettable := ← r.required "unsettable" Data.bool?
    volatile := ← r.required "volatile" Data.bool?
    containingClass := ← r.optional "containing_class" ElementId.ofData? }

end StructuralFeature

namespace EDataType

def shape : List (String × Presence) := [("classifier", .required), ("serializable", .required)]

def toFields (t : EDataType) : List (String × Data) :=
  [("classifier", t.toClassifier.toData), ("serializable", .bool t.serializable)]

def ofRecord? (r : Record) : Option EDataType :=
  return {
    toClassifier := ← r.required "classifier" Classifier.ofData?
    serializable := ← r.required "serializable" Data.bool? }

end EDataType

namespace Body

/-- The fields that a body adds to the record of its element. -/
def toFields : Body → List (String × Data)
  | .ePackage p =>
    Data.field? "ns_uri" (p.nsUri.map .text) ++
    Data.field? "ns_prefix" (p.nsPrefix.map .text) ++
    Data.field? "factory_instance" (p.factoryInstance.map Link.toData) ++
    [("classes", tableToData p.classes), ("data_types", tableToData p.dataTypes),
      ("subpackages", tableToData p.subpackages)] ++
    Data.field? "package" (p.package.map ElementId.toData) ++
    [("resolved", .bool p.resolved)]
  | .eClass c =>
    [("classifier", c.toClassifier.toData), ("abstract", .bool c.isAbstract),
      ("interface", .bool c.isInterface), ("super_types", linksToData c.superTypes),
      ("attributes", idsToData c.attributes), ("references", idsToData c.references),
      ("operations", idsToData c.operations),
      ("generic_super_types", idsToData c.genericSuperTypes)]
  | .eDataType t => t.toFields
  | .eEnum e => [("data_type", .record e.toEDataType.toFields), ("literals", idsToData e.literals)]
  | .eEnumLiteral l =>
    [("value", .int l.value.toInt)] ++
    Data.field? "literal" (l.literal.map .text) ++
    Data.field? "owner" (l.owner.map ElementId.toData)
  | .eAttribute a => [("feature", a.toStructuralFeature.toData), ("id", .bool a.isId)]
  | .eReference r =>
    [("feature", r.toStructuralFeature.toData), ("containment", .bool r.containment)] ++
    Data.field? "opposite" (r.opposite.map Link.toData) ++
    Data.nonEmpty "keys" (r.keys.map Link.toData) ++
    [("resolve_proxies", .bool r.resolveProxies)]
  | .eOperation o =>
    [("typed", o.toTypedElement.toData), ("parameters", idsToData o.parameters),
      ("type_parameters", idsToData o.typeParameters)] ++
    Data.nonEmpty "exceptions" (o.exceptions.map Link.toData) ++
    Data.field? "containing_class" (o.containingClass.map ElementId.toData)
  | .eParameter p =>
    [("typed", p.toTypedElement.toData)] ++
    Data.field? "operation" (p.operation.map ElementId.toData)
  | .eTypeParameter t => [("bounds", idsToData t.bounds)]
  | .eNote a =>
    Data.field? "source" (a.source.map .text) ++
    [("details", .record (a.details.entries.map fun (key, value) => (key, .text value)))] ++
    Data.nonEmpty "contents" (a.contents.map ElementId.toData) ++
    Data.nonEmpty "references" (a.references.map Link.toData)
  | .eGenericType g =>
    Data.field? "classifier" (g.classifier.map Link.toData) ++
    Data.field? "type_parameter" (g.typeParameter.map Link.toData) ++
    Data.field? "lower_bound" (g.lowerBound.map ElementId.toData) ++
    Data.field? "upper_bound" (g.upperBound.map ElementId.toData) ++
    [("type_arguments", idsToData g.typeArguments)]

/-- The fields that a body of each kind is read from. -/
def shape : Kind → List (String × Presence)
  | .ePackage =>
    [("ns_uri", .optional), ("ns_prefix", .optional), ("factory_instance", .optional),
      ("classes", .required), ("data_types", .required), ("subpackages", .required),
      ("package", .optional), ("resolved", .defaulted)]
  | .eClass =>
    [("classifier", .required), ("abstract", .required), ("interface", .required),
      ("super_types", .required), ("attributes", .required), ("references", .required),
      ("operations", .required), ("generic_super_types", .required)]
  | .eDataType => EDataType.shape
  | .eEnum => [("data_type", .required), ("literals", .required)]
  | .eEnumLiteral => [("value", .required), ("literal", .optional), ("owner", .optional)]
  | .eAttribute => [("feature", .required), ("id", .required)]
  | .eReference =>
    [("feature", .required), ("containment", .required), ("opposite", .optional),
      ("keys", .defaulted), ("resolve_proxies", .required)]
  | .eOperation =>
    [("typed", .required), ("parameters", .required), ("type_parameters", .required),
      ("exceptions", .defaulted), ("containing_class", .optional)]
  | .eParameter => [("typed", .required), ("operation", .optional)]
  | .eTypeParameter => [("bounds", .required)]
  | .eNote =>
    [("source", .optional), ("details", .required), ("contents", .defaulted),
      ("references", .defaulted)]
  | .eGenericType =>
    [("classifier", .optional), ("type_parameter", .optional), ("lower_bound", .optional),
      ("upper_bound", .optional), ("type_arguments", .required)]

def ofRecord? (r : Record) : Kind → Option Body
  | .ePackage => return .ePackage {
      nsUri := ← r.optional "ns_uri" Data.text?
      nsPrefix := ← r.optional "ns_prefix" Data.text?
      factoryInstance := ← r.optional "factory_instance" Link.ofData?
      classes := ← r.required "classes" (tableOfData? ElementId.ofData?)
      dataTypes := ← r.required "data_types" (tableOfData? ElementId.ofData?)
      subpackages := ← r.required "subpackages" (tableOfData? ElementId.ofData?)
      package := ← r.optional "package" ElementId.ofData?
      resolved := ← r.defaulted "resolved" false Data.bool? }
  | .eClass => return .eClass {
      toClassifier := ← r.required "classifier" Classifier.ofData?
      isAbstract := ← r.required "abstract" Data.bool?
      isInterface := ← r.required "interface" Data.bool?
      superTypes := ← r.required "super_types" linksOfData?
      attributes := ← r.required "attributes" idsOfData?
      references := ← r.required "references" idsOfData?
      operations := ← r.required "operations" idsOfData?
      genericSuperTypes := ← r.required "generic_super_types" idsOfData? }
  | .eDataType => return .eDataType (← EDataType.ofRecord? r)
  | .eEnum => return .eEnum {
      toEDataType :=
        ← r.required "data_type" fun d =>
          (Record.ofData? EDataType.shape d).bind EDataType.ofRecord?
      literals := ← r.required "literals" idsOfData? }
  | .eEnumLiteral => return .eEnumLiteral {
      value := ← r.required "value" Data.int32?
      literal := ← r.optional "literal" Data.text?
      owner := ← r.optional "owner" ElementId.ofData? }
  | .eAttribute => return .eAttribute {
      toStructuralFeature := ← r.required "feature" StructuralFeature.ofData?
      isId := ← r.required "id" Data.bool? }
  | .eReference => return .eReference {
      toStructuralFeature := ← r.required "feature" StructuralFeature.ofData?
      containment := ← r.required "containment" Data.bool?
      opposite := ← r.optional "opposite" Link.ofData?
      keys := ← r.defaulted "keys" [] linksOfData?
      resolveProxies := ← r.required "resolve_proxies" Data.bool? }
  | .eOperation => return .eOperation {
      toTypedElement := ← r.required "typed" TypedElement.ofData?
      parameters := ← r.required "parameters" idsOfData?
      typeParameters := ← r.required "type_parameters" idsOfData?
      exceptions := ← r.defaulted "exceptions" [] linksOfData?
      containingClass := ← r.optional "containing_class" ElementId.ofData? }
  | .eParameter => return .eParameter {
      toTypedElement := ← r.required "typed" TypedElement.ofData?
      operation := ← r.optional "operation" ElementId.ofData? }
  | .eTypeParameter => return .eTypeParameter { bounds := ← r.required "bounds" idsOfData? }
  | .eNote => return .eNote {
      source := ← r.optional "source" Data.text?
      details := ← r.required "details" (tableOfData? Data.text?)
      contents := ← r.defaulted "contents" [] idsOfData?
      references := ← r.defaulted "references" [] linksOfData? }
  | .eGenericType => return .eGenericType {
      classifier := ← r.optional "classifier" Link.ofData?
      typeParameter := ← r.optional "type_parameter" Link.ofData?
      lowerBound := ← r.optional "lower_bound" ElementId.ofData?
      upperBound := ← r.optional "upper_bound" ElementId.ofData?
      typeArguments := ← r.required "type_arguments" idsOfData? }

end Body

namespace Element

/-- The fields that every element has. -/
def shape : List (String × Presence) :=
  [("id", .required), ("name", .optional), ("parent", .optional), ("annotations", .defaulted)]

def toData (e : Element) : Data :=
  .record <|
    [("id", e.id.toData)] ++
    Data.field? "name" (e.name.map .text) ++
    Data.field? "parent" (e.parent.map ElementId.toData) ++
    Data.nonEmpty "annotations" (e.annotations.map ElementId.toData) ++
    [("kind", .text e.kind.tag)] ++ e.body.toFields

/-- The common fields are taken out of the record first; kind and body are read from the others. -/
def ofData? : Data → Option Element
  | .record fields => do
    let common ← Record.ofFields? shape fields
    let rest := fields.filter fun field => (shape.lookup field.1).isNone
    let tag ← Record.ofFields? [("kind", .required)] rest
    let kind ← tag.required "kind" Kind.ofData?
    return {
      id := ← common.required "id" ElementId.ofData?
      name := ← common.optional "name" Data.text?
      parent := ← common.optional "parent" ElementId.ofData?
      annotations := ← common.defaulted "annotations" [] idsOfData?
      body := ← Body.ofRecord? (← Record.ofFields? (Body.shape kind) rest) kind }
  | _ => none

end Element

namespace Model

def toData (m : Model) : Data :=
  .record [("elements", .list (m.elements.toList.map Element.toData))]

def ofData? (d : Data) : Option Model := do
  let r ← Record.ofData? [("elements", .required)] d
  let elements ← r.required "elements" (Data.list? Element.ofData?)
  return ⟨elements.toArray⟩

end Model

end Metamodel
