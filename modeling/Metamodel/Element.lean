import Metamodel.Error
import Metamodel.Kind
import Metamodel.OrderedMap

/-!
Elements: what each kind of element carries.

The shared parts of the hierarchy (`Classifier`, `TypedElement`, `StructuralFeature`) are extended
by the kinds that have them. Containment is held by ids in slots of the container; cross references
are `Link`s and own nothing.
-/

namespace Metamodel

/-- The position of an element in its model. -/
structure ElementId where
  index : Nat
  deriving DecidableEq, Repr, Inhabited

namespace ElementId

instance : ToString ElementId := ⟨fun id => s!"#{id.index}"⟩

end ElementId

/-- A cross reference: the text written in a document, or the element that it was resolved to. -/
inductive Link
  | symbolic (uri : String)
  | resolved (target : ElementId)
  deriving DecidableEq, Repr, Inhabited

namespace Link

def isResolved : Link → Bool
  | .symbolic _ => false
  | .resolved _ => true

def target? : Link → Option ElementId
  | .symbolic _ => none
  | .resolved id => some id

def uri? : Link → Option String
  | .symbolic uri => some uri
  | .resolved _ => none

/-- The target, where a pass of resolution must have left no symbolic link. -/
def requireTarget : Link → Except Error ElementId
  | .symbolic uri => .error (.linkNotResolved uri)
  | .resolved id => .ok id

end Link

/-- What classes, data types and enums share. -/
structure Classifier where
  instanceClassName : Option String := none
  instanceTypeName : Option String := none
  typeParameters : List ElementId := []
  /-- The package that holds the classifier. -/
  package : Option ElementId := none
  deriving DecidableEq, Inhabited

/-- What attributes, references, operations and parameters share. -/
structure TypedElement where
  eType : Option Link := none
  genericType : Option ElementId := none
  lowerBound : Int32 := 0
  /-- `-1` is unbounded, `-2` is unspecified. -/
  upperBound : Int32 := 1
  ordered : Bool := true
  unique : Bool := false
  deriving DecidableEq, Inhabited

namespace TypedElement

/-- Unbounded, unspecified and upper bounds above one hold many values. -/
def isMany (t : TypedElement) : Bool := t.upperBound < 0 || t.upperBound > 1

def isRequired (t : TypedElement) : Bool := t.lowerBound ≥ 1

end TypedElement

/-- What attributes and references share. -/
structure StructuralFeature extends TypedElement where
  changeable : Bool := true
  defaultValueLiteral : Option String := none
  derived : Bool := false
  transient : Bool := false
  unsettable : Bool := false
  volatile : Bool := false
  /-- The class that holds the feature. -/
  containingClass : Option ElementId := none
  deriving DecidableEq, Inhabited

structure EPackage where
  nsUri : Option String := none
  nsPrefix : Option String := none
  factoryInstance : Option Link := none
  classes : OrderedMap ElementId := ∅
  dataTypes : OrderedMap ElementId := ∅
  subpackages : OrderedMap ElementId := ∅
  /-- The enclosing package. -/
  package : Option ElementId := none
  /-- Set once every symbolic link below the package has been resolved. -/
  resolved : Bool := false
  deriving DecidableEq, Inhabited

structure EClass extends Classifier where
  isAbstract : Bool := false
  isInterface : Bool := false
  superTypes : List Link := []
  attributes : List ElementId := []
  references : List ElementId := []
  operations : List ElementId := []
  genericSuperTypes : List ElementId := []
  deriving DecidableEq, Inhabited

structure EDataType extends Classifier where
  serializable : Bool := true
  deriving DecidableEq, Inhabited

structure EEnum extends EDataType where
  literals : List ElementId := []
  deriving DecidableEq, Inhabited

structure EEnumLiteral where
  value : Int32 := 0
  /-- The literal text; the name stands in when it is absent. -/
  literal : Option String := none
  owner : Option ElementId := none
  deriving DecidableEq, Inhabited

structure EAttribute extends StructuralFeature where
  isId : Bool := false
  deriving DecidableEq, Inhabited

structure EReference extends StructuralFeature where
  containment : Bool := false
  opposite : Option Link := none
  keys : List Link := []
  /-- A hint for lazy readers; resolution is always eager here. -/
  resolveProxies : Bool := true
  deriving DecidableEq, Inhabited

structure EOperation extends TypedElement where
  parameters : List ElementId := []
  typeParameters : List ElementId := []
  exceptions : List Link := []
  containingClass : Option ElementId := none
  deriving DecidableEq, Inhabited

structure EParameter extends TypedElement where
  operation : Option ElementId := none
  deriving DecidableEq, Inhabited

structure ETypeParameter where
  bounds : List ElementId := []
  deriving DecidableEq, Inhabited

/-- An annotation. -/
structure ENote where
  source : Option String := none
  details : OrderedMap String := ∅
  contents : List ElementId := []
  references : List Link := []
  deriving DecidableEq, Inhabited

/-- A type expression with arguments or bounds. -/
structure EGenericType where
  classifier : Option Link := none
  typeParameter : Option Link := none
  lowerBound : Option ElementId := none
  upperBound : Option ElementId := none
  typeArguments : List ElementId := []
  deriving DecidableEq, Inhabited

/-- What an element carries beyond its name, container and annotations. -/
inductive Body
  | ePackage (content : EPackage)
  | eClass (content : EClass)
  | eDataType (content : EDataType)
  | eEnum (content : EEnum)
  | eEnumLiteral (content : EEnumLiteral)
  | eAttribute (content : EAttribute)
  | eReference (content : EReference)
  | eOperation (content : EOperation)
  | eParameter (content : EParameter)
  | eTypeParameter (content : ETypeParameter)
  | eNote (content : ENote)
  | eGenericType (content : EGenericType)
  deriving DecidableEq, Inhabited

namespace Body

def kind : Body → Kind
  | .ePackage _ => .ePackage
  | .eClass _ => .eClass
  | .eDataType _ => .eDataType
  | .eEnum _ => .eEnum
  | .eEnumLiteral _ => .eEnumLiteral
  | .eAttribute _ => .eAttribute
  | .eReference _ => .eReference
  | .eOperation _ => .eOperation
  | .eParameter _ => .eParameter
  | .eTypeParameter _ => .eTypeParameter
  | .eNote _ => .eNote
  | .eGenericType _ => .eGenericType

/-- The body of a new element. -/
def blank : Kind → Body
  | .ePackage => .ePackage {}
  | .eClass => .eClass {}
  | .eDataType => .eDataType {}
  | .eEnum => .eEnum {}
  | .eEnumLiteral => .eEnumLiteral {}
  | .eAttribute => .eAttribute {}
  | .eReference => .eReference {}
  | .eOperation => .eOperation {}
  | .eParameter => .eParameter {}
  | .eTypeParameter => .eTypeParameter {}
  | .eNote => .eNote {}
  | .eGenericType => .eGenericType {}

@[simp]
theorem kind_blank (k : Kind) : (blank k).kind = k := by
  cases k <;> rfl

def package? : Body → Option EPackage
  | .ePackage p => some p
  | _ => none

def class? : Body → Option EClass
  | .eClass c => some c
  | _ => none

def enum? : Body → Option EEnum
  | .eEnum e => some e
  | _ => none

def enumLiteral? : Body → Option EEnumLiteral
  | .eEnumLiteral l => some l
  | _ => none

def attribute? : Body → Option EAttribute
  | .eAttribute a => some a
  | _ => none

def reference? : Body → Option EReference
  | .eReference r => some r
  | _ => none

def operation? : Body → Option EOperation
  | .eOperation o => some o
  | _ => none

def note? : Body → Option ENote
  | .eNote a => some a
  | _ => none

def genericType? : Body → Option EGenericType
  | .eGenericType g => some g
  | _ => none

def classifier? : Body → Option Classifier
  | .eClass c => some c.toClassifier
  | .eDataType d => some d.toClassifier
  | .eEnum e => some e.toClassifier
  | _ => none

def typed? : Body → Option TypedElement
  | .eAttribute a => some a.toTypedElement
  | .eReference r => some r.toTypedElement
  | .eOperation o => some o.toTypedElement
  | .eParameter p => some p.toTypedElement
  | _ => none

def feature? : Body → Option StructuralFeature
  | .eAttribute a => some a.toStructuralFeature
  | .eReference r => some r.toStructuralFeature
  | _ => none

/-- Changes the package part, if there is one. -/
def mapPackage (f : EPackage → EPackage) : Body → Body
  | .ePackage p => .ePackage (f p)
  | b => b

/-- Changes the class part, if there is one. -/
def mapClass (f : EClass → EClass) : Body → Body
  | .eClass c => .eClass (f c)
  | b => b

/-- Changes the data type part, which enums have too, if there is one. -/
def mapDataType (f : EDataType → EDataType) : Body → Body
  | .eDataType d => .eDataType (f d)
  | .eEnum e => .eEnum { e with toEDataType := f e.toEDataType }
  | b => b

/-- Changes the enum literal part, if there is one. -/
def mapEnumLiteral (f : EEnumLiteral → EEnumLiteral) : Body → Body
  | .eEnumLiteral l => .eEnumLiteral (f l)
  | b => b

/-- Changes the attribute part, if there is one. -/
def mapAttribute (f : EAttribute → EAttribute) : Body → Body
  | .eAttribute a => .eAttribute (f a)
  | b => b

/-- Changes the reference part, if there is one. -/
def mapReference (f : EReference → EReference) : Body → Body
  | .eReference r => .eReference (f r)
  | b => b

/-- Changes the operation part, if there is one. -/
def mapOperation (f : EOperation → EOperation) : Body → Body
  | .eOperation o => .eOperation (f o)
  | b => b

/-- Changes the annotation part, if there is one. -/
def mapNote (f : ENote → ENote) : Body → Body
  | .eNote a => .eNote (f a)
  | b => b

/-- Changes the generic type part, if there is one. -/
def mapGenericType (f : EGenericType → EGenericType) : Body → Body
  | .eGenericType g => .eGenericType (f g)
  | b => b

/-- Changes the classifier part, if there is one. -/
def mapClassifier (f : Classifier → Classifier) : Body → Body
  | .eClass c => .eClass { c with toClassifier := f c.toClassifier }
  | .eDataType d => .eDataType { d with toClassifier := f d.toClassifier }
  | .eEnum e => .eEnum { e with toClassifier := f e.toClassifier }
  | b => b

/-- Changes the typed part, if there is one. -/
def mapTyped (f : TypedElement → TypedElement) : Body → Body
  | .eAttribute a => .eAttribute { a with toTypedElement := f a.toTypedElement }
  | .eReference r => .eReference { r with toTypedElement := f r.toTypedElement }
  | .eOperation o => .eOperation { o with toTypedElement := f o.toTypedElement }
  | .eParameter p => .eParameter { p with toTypedElement := f p.toTypedElement }
  | b => b

/-- Changes the feature part, if there is one. -/
def mapFeature (f : StructuralFeature → StructuralFeature) : Body → Body
  | .eAttribute a => .eAttribute { a with toStructuralFeature := f a.toStructuralFeature }
  | .eReference r => .eReference { r with toStructuralFeature := f r.toStructuralFeature }
  | b => b

end Body

/-- A node of the model graph. -/
structure Element where
  id : ElementId
  name : Option String := none
  /-- The containing element; absent for root packages and detached elements. -/
  parent : Option ElementId := none
  annotations : List ElementId := []
  body : Body
  deriving DecidableEq, Inhabited

namespace Element

def kind (e : Element) : Kind := e.body.kind

/-- The name, empty when there is none. -/
def label (e : Element) : String := e.name.getD ""

/-- A new element without name, container or content. -/
def blank (id : ElementId) (kind : Kind) : Element where
  id := id
  body := .blank kind

/-- The text of an enum literal: its literal, else its name. -/
def literalText (e : Element) : String :=
  (e.body.enumLiteral?.bind (·.literal)).getD e.label

end Element

end Metamodel
