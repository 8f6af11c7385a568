import Metamodel.Generation.Naming
import Metamodel.Generation.TypeTable

/-! The settings of code generation. -/

namespace Metamodel

/-- Which declarations are written. -/
structure EmitSettings where
  /-- Enums and traits. -/
  interfaces : Bool := true
  /-- Structs of concrete classes. -/
  implementations : Bool := true
  /-- A summary in front of every declaration. -/
  summaries : Bool := true
  deriving DecidableEq, Repr

structure GenerationSettings where
  naming : NamingSettings := {}
  types : TypeSettings := {}
  emit : EmitSettings := {}
  deriving DecidableEq, Repr

end Metamodel
