import Metamodel.Error
import Metamodel.Model.Containment
import Metamodel.OrderedMap

/-!
What the tags of schema documents stand for: the kind of element that a tag creates and the slot
that the element goes into.
-/

namespace Metamodel

/-- The part of a discriminator value that names a kind: what follows the last colon. -/
def localName (value : String) : String :=
  String.ofList ((value.toList.reverse.takeWhile (· ≠ ':')).reverse)

/-- What the start of an element creates. -/
structure TagMeaning where
  kind : Kind
  slot : Slot
  deriving DecidableEq, Repr

namespace TagMeaning

/-- The tags that stand for one kind of element. -/
def ofTag? : String → Option TagMeaning
  | "EPackage" => some ⟨.ePackage, .subpackages⟩
  | "eSubpackages" => some ⟨.ePackage, .subpackages⟩
  | "eClasses" => some ⟨.eClass, .classes⟩
  | "eDataTypes" => some ⟨.eDataType, .dataTypes⟩
  | "eEnums" => some ⟨.eEnum, .dataTypes⟩
  | "eAttributes" => some ⟨.eAttribute, .attributes⟩
  | "eReferences" => some ⟨.eReference, .references⟩
  | "eOperations" => some ⟨.eOperation, .operations⟩
  | "eParameters" => some ⟨.eParameter, .parameters⟩
  | "eLiterals" => some ⟨.eEnumLiteral, .literals⟩
  | "eAnnotations" => some ⟨.eNote, .annotations⟩
  | "eTypeParameters" => some ⟨.eTypeParameter, .typeParameters⟩
  | "eBounds" => some ⟨.eGenericType, .bounds⟩
  | "eGenericType" => some ⟨.eGenericType, .genericType⟩
  | "eGenericSuperTypes" => some ⟨.eGenericType, .genericSuperTypes⟩
  | "eTypeArguments" => some ⟨.eGenericType, .typeArguments⟩
  | "eLowerBound" => some ⟨.eGenericType, .lowerBound⟩
  | "eUpperBound" => some ⟨.eGenericType, .upperBound⟩
  | _ => none

/-- The tags that stand for several kinds: which local names a discriminator may have, and what each
means. -/
def choices? : String → Option (List (String × TagMeaning))
  | "eClassifiers" =>
    some [("EClass", ⟨.eClass, .classes⟩), ("EDataType", ⟨.eDataType, .dataTypes⟩),
      ("EEnum", ⟨.eEnum, .dataTypes⟩)]
  | "eStructuralFeatures" =>
    some [("EAttribute", ⟨.eAttribute, .attributes⟩), ("EReference", ⟨.eReference, .references⟩)]
  | _ => none

/-- The meaning of a tag, with the discriminator where the tag needs one; nothing if the tag is not
known. -/
def of (discriminator tag : String) (attributes : OrderedMap String) :
    Except Error (Option TagMeaning) :=
  match choices? tag with
  | none => .ok (ofTag? tag)
  | some choices =>
    match attributes.get? discriminator with
    | none => .error (.missingDiscriminator tag)
    | some value =>
      match choices.lookup (localName value) with
      | none => .error (.unrecognizedDiscriminator tag (localName value))
      | some meaning => .ok (some meaning)

end TagMeaning

end Metamodel
