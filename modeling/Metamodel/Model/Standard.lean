import Metamodel.Model.Containment

/-!
The standard Ecore package: the data types and the two classes that documents may refer to without
holding them.
-/

namespace Metamodel

namespace Standard

def nsUri : String := "http://www.eclipse.org/emf/2002/Ecore"

def nsPrefix : String := "ecore"

/-- The data types with their instance classes. -/
def dataTypes : List (String × String) :=
  [("EBigDecimal", "java.math.BigDecimal"),
    ("EBigInteger", "java.math.BigInteger"),
    ("EBoolean", "boolean"),
    ("EBooleanObject", "java.lang.Boolean"),
    ("EByte", "byte"),
    ("EByteArray", "byte[]"),
    ("EByteObject", "java.lang.Byte"),
    ("EChar", "char"),
    ("ECharacterObject", "java.lang.Character"),
    ("EDate", "java.util.Date"),
    ("EDouble", "double"),
    ("EDoubleObject", "java.lang.Double"),
    ("EFloat", "float"),
    ("EFloatObject", "java.lang.Float"),
    ("EInt", "int"),
    ("EIntegerObject", "java.lang.Integer"),
    ("EJavaClass", "java.lang.Class"),
    ("EJavaObject", "java.lang.Object"),
    ("ELong", "long"),
    ("ELongObject", "java.lang.Long"),
    ("EShort", "short"),
    ("EShortObject", "java.lang.Short"),
    ("EString", "java.lang.String")]

/-- The universal class. -/
def objectClass : String := "EObject"

/-- The class of entries of maps from strings to strings. -/
def mapEntryClass : String := "EStringToStringMapEntry"

/-- The data type of the map entry's features. -/
def stringType : String := "EString"

end Standard

namespace Model

/-- Creates a named element and puts it into a slot of `owner`. -/
def createIn (m : Model) (slot : Slot) (owner : ElementId) (kind : Kind) (name : String) : Model :=
  (m.create kind (some name)).attach slot owner m.nextId

/-- Adds the standard package, already resolved, as a root; its id is the next free one. -/
def addStandardPackage (m : Model) : Model :=
  let package := m.nextId
  let withTypes := Standard.dataTypes.foldl
    (fun m (name, instanceClass) =>
      (m.createIn .dataTypes package .eDataType name).modifyBody m.nextId
        (Body.mapClassifier fun c => { c with instanceClassName := some instanceClass }))
    ((m.create .ePackage (some Standard.nsPrefix)).modifyBody package
      (Body.mapPackage fun p =>
        { p with
          nsUri := some Standard.nsUri
          nsPrefix := some Standard.nsPrefix
          resolved := true }))
  let withObject := withTypes.createIn .classes package .eClass Standard.objectClass
  let entry := withObject.nextId
  let withEntry :=
    (withObject.createIn .classes package .eClass Standard.mapEntryClass).modifyBody entry
      (Body.mapClassifier fun c => { c with instanceClassName := some "java.util.Map$Entry" })
  let stringType := (withEntry.package? package).bind (·.dataTypes.get? Standard.stringType)
  ["key", "value"].foldl
    (fun m name => (m.createIn .attributes entry .eAttribute name).modifyBody m.nextId
      (Body.mapTyped fun t => { t with eType := stringType.map .resolved }))
    withEntry

end Model

end Metamodel
