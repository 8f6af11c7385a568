import Metamodel.Identifier

/-!
How types of a model are written in generated code.

Data types are looked up in a table; the other types are written by templates, in which `{}` stands
for the element.

Results:
1. `find?_register`: the last mapping registered for a data type is the one that is found.
-/

namespace Metamodel

/-- What kind of value a data type has, which decides its default value. -/
inductive ScalarKind
  | boolean
  | integer
  | float
  | string
  | other
  deriving DecidableEq, Repr

namespace ScalarKind

def all : List ScalarKind := [.boolean, .integer, .float, .string, .other]

def name : ScalarKind → String
  | .boolean => "boolean"
  | .integer => "integer"
  | .float => "float"
  | .string => "string"
  | .other => "other"

/-- Whether values are copied when they are read. -/
def isCopy : ScalarKind → Bool
  | .boolean | .integer | .float => true
  | .string | .other => false

end ScalarKind

/-- A data type and the type that it is written as. -/
structure DataTypeMapping where
  dataType : String
  written : String
  kind : ScalarKind
  deriving DecidableEq, Repr

/-- The mapped data types, each of them once if built by `register`. -/
abbrev DataTypeTable := List DataTypeMapping

namespace DataTypeTable

/-- The mapping of a data type. -/
def find? (t : DataTypeTable) (dataType : String) : Option DataTypeMapping :=
  List.find? (fun entry => entry.dataType = dataType) t

/-- Adds a mapping at the end, or puts it in the place of the first one for the same data type. -/
def register : DataTypeTable → DataTypeMapping → DataTypeTable
  | [], mapping => [mapping]
  | entry :: rest, mapping =>
    if entry.dataType = mapping.dataType then mapping :: rest else entry :: register rest mapping

theorem find?_register (t : DataTypeTable) (mapping : DataTypeMapping) (dataType : String) :
    (t.register mapping).find? dataType =
      if dataType = mapping.dataType then some mapping else t.find? dataType := by
  unfold find?
  induction t with
  | nil => by_cases h : dataType = mapping.dataType <;> grind [register]
  | cons entry rest ih =>
    unfold register
    by_cases he : entry.dataType = mapping.dataType <;>
      by_cases h : dataType = mapping.dataType <;> grind

/-- The table that holds before any settings are read. -/
def builtIn : DataTypeTable :=
  [⟨"EString", "String", .string⟩, ⟨"EChar", "String", .string⟩,
    ⟨"ECharacterObject", "String", .string⟩, ⟨"EBoolean", "bool", .boolean⟩,
    ⟨"EBooleanObject", "bool", .boolean⟩, ⟨"EInt", "i32", .integer⟩,
    ⟨"EIntegerObject", "i32", .integer⟩, ⟨"ELong", "i64", .integer⟩,
    ⟨"ELongObject", "i64", .integer⟩, ⟨"EShort", "i16", .integer⟩,
    ⟨"EShortObject", "i16", .integer⟩, ⟨"EByte", "i8", .integer⟩,
    ⟨"EByteObject", "i8", .integer⟩, ⟨"EFloat", "f32", .float⟩, ⟨"EFloatObject", "f32", .float⟩,
    ⟨"EDouble", "f64", .float⟩, ⟨"EDoubleObject", "f64", .float⟩,
    ⟨"EByteArray", "Vec<u8>", .other⟩]

/-- The built-in table with further mappings registered over it. -/
def configured (mappings : List DataTypeMapping) : DataTypeTable := mappings.foldl register builtIn

end DataTypeTable

structure TypeSettings where
  /-- The template for many values. -/
  many : String := "Vec<\x7b\x7d>"
  stringMap : String := "HashMap<String, String>"
  /-- The template for a reference to the trait of a class. -/
  classRef : String := "Rc<dyn \x7b\x7d>"
  /-- The type of everything that has no other. -/
  fallback : String := "Box<dyn Any>"
  dataTypes : DataTypeTable := .builtIn
  deriving DecidableEq, Repr

/-- A template with `element` in every open place. -/
def fillTemplate (element : List Char) : List Char → List Char
  | '\x7b' :: '\x7d' :: rest => element ++ fillTemplate element rest
  | c :: rest => c :: fillTemplate element rest
  | [] => []

namespace TypeSettings

/-- The type of many values. -/
def manyOf (t : TypeSettings) (element : String) : String :=
  String.ofList (fillTemplate element.toList t.many.toList)

/-- The type of a reference to a trait. -/
def classRefOf (t : TypeSettings) (path : String) : String :=
  String.ofList (fillTemplate path.toList t.classRef.toList)

/-- Whether many values are held by a vector. -/
def manyIsVector (t : TypeSettings) : Bool := (Identifier.after? "Vec<" t.many).isSome

/-- Whether string maps are held by a hash map. -/
def stringMapIsHashMap (t : TypeSettings) : Bool :=
  (Identifier.after? "HashMap<" t.stringMap).isSome

end TypeSettings

end Metamodel
