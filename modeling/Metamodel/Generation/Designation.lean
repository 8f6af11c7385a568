import Metamodel.Element
import Metamodel.Generation.TypeTable

/-!
Types of generated code by what they stand for, and the types of fields.
-/

namespace Metamodel

inductive Designation
  | scalar (written : String) (kind : ScalarKind)
  | enum (path : String) (id : ElementId)
  /-- The trait of a class. -/
  | trait (path : String)
  /-- Anything that has no type of its own. -/
  | object
  | stringMap
  | many (element : Designation)
  /-- No value: what an operation without a type returns. -/
  | unit
  deriving DecidableEq, Repr

namespace Designation

/-- The written type. -/
def render (t : TypeSettings) : Designation → String
  | .scalar written _ => written
  | .enum path _ => path
  | .trait path => t.classRefOf path
  | .object => t.fallback
  | .stringMap => t.stringMap
  | .many element => t.manyOf (element.render t)
  | .unit => "()"

/-- Whether values are copied when they are read. -/
def isCopy : Designation → Bool
  | .scalar _ kind => kind.isCopy
  | .enum _ _ => true
  | _ => false

def isBoolean : Designation → Bool
  | .scalar _ kind => kind = .boolean
  | _ => false

def isMany : Designation → Bool
  | .many _ | .stringMap => true
  | _ => false

end Designation

/-- The type of a field. Without a value to begin with, the field is optional. -/
structure FieldType where
  designation : Designation
  default : Option String := none
  deriving DecidableEq, Repr

namespace FieldType

def isOptional (f : FieldType) : Bool := f.default.isNone

/-- The written type of the field. -/
def render (t : TypeSettings) (f : FieldType) : String :=
  let inner := f.designation.render t
  if f.isOptional then s!"Option<{inner}>" else inner

/-- The value that the field begins with. -/
def initial (f : FieldType) : String := f.default.getD "None"

/-- The type that the getter returns: a copy or a borrow. -/
def getterType (t : TypeSettings) (f : FieldType) : String :=
  let inner := f.designation.render t
  let value := if f.designation.isCopy then inner else "&" ++ inner
  if f.isOptional then s!"Option<{value}>" else value

/-- The expression that reads the field. -/
def getterBody (ident : String) (f : FieldType) : String :=
  if f.designation.isCopy then "self." ++ ident
  else if f.isOptional then s!"self.{ident}.as_ref()"
  else "&self." ++ ident

end FieldType

end Metamodel
