import Metamodel.Element

/-!
Generated declarations, before they are written out.

A module holds enums, traits and structs, and the modules of nested packages. Types, values and
statements are already text here.
-/

namespace Metamodel.Generated

/-- A variant of an enum. -/
structure Variant where
  name : String
  /-- The text that stands for the variant. -/
  literal : String
  value : Int32
  deriving DecidableEq, Repr

structure Enum where
  name : String
  summary : Option String
  variants : List Variant
  deriving DecidableEq, Repr

/-- A method that reads a feature. -/
structure Getter where
  summary : Option String
  name : String
  returns : String
  deriving DecidableEq, Repr

/-- A parameter or field. -/
structure Typed where
  name : String
  type : String
  deriving DecidableEq, Repr

/-- A method for an operation. It has no behaviour yet. -/
structure Method where
  summary : Option String
  name : String
  /-- Whether calling the method may change the object. -/
  mutates : Bool
  parameters : List Typed
  returns : Option String
  /-- The class and the operation that the method is for. -/
  origin : String
  deriving DecidableEq, Repr

structure Trait where
  name : String
  summary : Option String
  supertraits : List String
  getters : List Getter
  methods : List Method
  deriving DecidableEq, Repr

/-- A field of a struct and the value that it begins with. -/
structure Field extends Typed where
  initial : String
  deriving DecidableEq, Repr

/-- A method that changes a field. -/
structure Mutator where
  name : String
  parameters : List Typed
  statement : String
  deriving DecidableEq, Repr

/-- A getter with the expression that it returns. -/
structure GetterBody where
  name : String
  returns : String
  expression : String
  deriving DecidableEq, Repr

/-- The implementation of a trait by a struct. -/
structure TraitBody where
  trait : String
  getters : List GetterBody
  deriving DecidableEq, Repr

structure Struct where
  name : String
  fields : List Field
  mutators : List Mutator
  traits : List TraitBody
  deriving DecidableEq, Repr

inductive Item
  | enum (content : Enum)
  | trait (content : Trait)
  | struct (content : Struct)
  deriving DecidableEq, Repr

/-- The module of a package. -/
structure Module where
  name : String
  summary : Option String
  items : List Item
  /-- The modules of the subpackages, in order. A member that is no package has none, and leaves
  an empty line. -/
  nested : List (Option Module)
  deriving Repr

mutual

/-- The number of enums, traits and structs in a module and the modules below it. -/
def Module.typeCount : Module → Nat
  | ⟨_, _, items, nested⟩ => items.length + typeCounts nested

def typeCounts : List (Option Module) → Nat
  | [] => 0
  | none :: rest => typeCounts rest
  | some m :: rest => m.typeCount + typeCounts rest

end

end Metamodel.Generated
