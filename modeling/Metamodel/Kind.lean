/-!
The concrete kinds of Ecore elements and the metaclass hierarchy above them.

Every kind has a `lineage`: its metaclass and all more general ones, most specific first.
Conformance (`Kind.conformsTo`) and traversal both read this one table.

Results:
1. `Metaclass.lineage_eq_cons`: the lineage follows `general` step by step.
2. `Kind.conformsTo_self`: every kind conforms to its own name.
-/

namespace Metamodel

/-- A concrete kind of element. -/
inductive Kind
  | ePackage
  | eClass
  | eDataType
  | eEnum
  | eEnumLiteral
  | eAttribute
  | eReference
  | eOperation
  | eParameter
  | eTypeParameter
  /-- An annotation. -/
  | eNote
  | eGenericType
  deriving DecidableEq, Repr, Inhabited

/-- A metaclass, abstract ones included. `anything` stands above all of them: it also covers generic
types, which are not model elements. -/
inductive Metaclass
  | anything
  | eModelElement
  | eNamedElement
  | ePackage
  | eClassifier
  | eClass
  | eDataType
  | eEnum
  | eEnumLiteral
  | eTypedElement
  | eStructuralFeature
  | eAttribute
  | eReference
  | eOperation
  | eParameter
  | eTypeParameter
  | eNote
  | eGenericType
  deriving DecidableEq, Repr, Inhabited

namespace Metaclass

def all : List Metaclass :=
  [.anything, .eModelElement, .eNamedElement, .ePackage, .eClassifier, .eClass, .eDataType, .eEnum,
    .eEnumLiteral, .eTypedElement, .eStructuralFeature, .eAttribute, .eReference, .eOperation,
    .eParameter, .eTypeParameter, .eNote, .eGenericType]

/-- The next more general metaclass. -/
def general : Metaclass → Option Metaclass
  | .anything => none
  | .eModelElement => some .anything
  | .eNamedElement => some .eModelElement
  | .ePackage => some .eNamedElement
  | .eClassifier => some .eNamedElement
  | .eClass => some .eClassifier
  | .eDataType => some .eClassifier
  | .eEnum => some .eDataType
  | .eEnumLiteral => some .eNamedElement
  | .eTypedElement => some .eNamedElement
  | .eStructuralFeature => some .eTypedElement
  | .eAttribute => some .eStructuralFeature
  | .eReference => some .eStructuralFeature
  | .eOperation => some .eTypedElement
  | .eParameter => some .eTypedElement
  | .eTypeParameter => some .eNamedElement
  | .eNote => some .eModelElement
  | .eGenericType => some .anything

/-- The metaclass and everything more general, most specific first. -/
def lineage : Metaclass → List Metaclass
  | .anything => [.anything]
  | .eModelElement => [.eModelElement, .anything]
  | .eNamedElement => [.eNamedElement, .eModelElement, .anything]
  | .ePackage => [.ePackage, .eNamedElement, .eModelElement, .anything]
  | .eClassifier => [.eClassifier, .eNamedElement, .eModelElement, .anything]
  | .eClass => [.eClass, .eClassifier, .eNamedElement, .eModelElement, .anything]
  | .eDataType => [.eDataType, .eClassifier, .eNamedElement, .eModelElement, .anything]
  | .eEnum => [.eEnum, .eDataType, .eClassifier, .eNamedElement, .eModelElement, .anything]
  | .eEnumLiteral => [.eEnumLiteral, .eNamedElement, .eModelElement, .anything]
  | .eTypedElement => [.eTypedElement, .eNamedElement, .eModelElement, .anything]
  | .eStructuralFeature =>
    [.eStructuralFeature, .eTypedElement, .eNamedElement, .eModelElement, .anything]
  | .eAttribute =>
    [.eAttribute, .eStructuralFeature, .eTypedElement, .eNamedElement, .eModelElement, .anything]
  | .eReference =>
    [.eReference, .eStructuralFeature, .eTypedElement, .eNamedElement, .eModelElement, .anything]
  | .eOperation => [.eOperation, .eTypedElement, .eNamedElement, .eModelElement, .anything]
  | .eParameter => [.eParameter, .eTypedElement, .eNamedElement, .eModelElement, .anything]
  | .eTypeParameter => [.eTypeParameter, .eNamedElement, .eModelElement, .anything]
  | .eNote => [.eNote, .eModelElement, .anything]
  | .eGenericType => [.eGenericType, .anything]

theorem lineage_eq_cons (c : Metaclass) :
    c.lineage = c :: (c.general.elim [] lineage) := by
  cases c <;> rfl

/-- The metaclass of a standard name. The universal type of the standard, `EObject`, covers the
model elements. -/
def ofName? : String → Option Metaclass
  | "EObject" => some .eModelElement
  | "EModelElement" => some .eModelElement
  | "ENamedElement" => some .eNamedElement
  | "EPackage" => some .ePackage
  | "EClassifier" => some .eClassifier
  | "EClass" => some .eClass
  | "EDataType" => some .eDataType
  | "EEnum" => some .eEnum
  | "EEnumLiteral" => some .eEnumLiteral
  | "ETypedElement" => some .eTypedElement
  | "EStructuralFeature" => some .eStructuralFeature
  | "EAttribute" => some .eAttribute
  | "EReference" => some .eReference
  | "EOperation" => some .eOperation
  | "EParameter" => some .eParameter
  | "ETypeParameter" => some .eTypeParameter
  | "EAnnotation" => some .eNote
  | "EGenericType" => some .eGenericType
  | _ => none

/-- The standard name, where the standard has one. -/
def name : Metaclass → String
  | .anything => ""
  | .eModelElement => "EModelElement"
  | .eNamedElement => "ENamedElement"
  | .ePackage => "EPackage"
  | .eClassifier => "EClassifier"
  | .eClass => "EClass"
  | .eDataType => "EDataType"
  | .eEnum => "EEnum"
  | .eEnumLiteral => "EEnumLiteral"
  | .eTypedElement => "ETypedElement"
  | .eStructuralFeature => "EStructuralFeature"
  | .eAttribute => "EAttribute"
  | .eReference => "EReference"
  | .eOperation => "EOperation"
  | .eParameter => "EParameter"
  | .eTypeParameter => "ETypeParameter"
  | .eNote => "EAnnotation"
  | .eGenericType => "EGenericType"

theorem ofName?_name {c : Metaclass} (standard : c ≠ .anything) : ofName? c.name = some c := by
  cases c <;> first | rfl | exact absurd rfl standard

end Metaclass

namespace Kind

def all : List Kind :=
  [.ePackage, .eClass, .eDataType, .eEnum, .eEnumLiteral, .eAttribute, .eReference, .eOperation,
    .eParameter, .eTypeParameter, .eNote, .eGenericType]

/-- The standard name, which qualified references also use. -/
def name : Kind → String
  | .ePackage => "EPackage"
  | .eClass => "EClass"
  | .eDataType => "EDataType"
  | .eEnum => "EEnum"
  | .eEnumLiteral => "EEnumLiteral"
  | .eAttribute => "EAttribute"
  | .eReference => "EReference"
  | .eOperation => "EOperation"
  | .eParameter => "EParameter"
  | .eTypeParameter => "ETypeParameter"
  | .eNote => "EAnnotation"
  | .eGenericType => "EGenericType"

def metaclass : Kind → Metaclass
  | .ePackage => .ePackage
  | .eClass => .eClass
  | .eDataType => .eDataType
  | .eEnum => .eEnum
  | .eEnumLiteral => .eEnumLiteral
  | .eAttribute => .eAttribute
  | .eReference => .eReference
  | .eOperation => .eOperation
  | .eParameter => .eParameter
  | .eTypeParameter => .eTypeParameter
  | .eNote => .eNote
  | .eGenericType => .eGenericType

/-- The metaclasses of an element of this kind, most specific first. -/
def lineage (k : Kind) : List Metaclass := k.metaclass.lineage

/-- Whether elements of this kind are instances of `c`. -/
def isA (k : Kind) (c : Metaclass) : Bool := k.lineage.contains c

def isClassifier (k : Kind) : Bool := k.isA .eClassifier

def isDataType (k : Kind) : Bool := k.isA .eDataType

def isStructuralFeature (k : Kind) : Bool := k.isA .eStructuralFeature

def isTyped (k : Kind) : Bool := k.isA .eTypedElement

def isNamed (k : Kind) : Bool := k.isA .eNamedElement

/-- Whether an element of this kind may stand where the metaclass named `standardName` is
expected. -/
def conformsTo (k : Kind) (standardName : String) : Bool :=
  (Metaclass.ofName? standardName).any k.isA

theorem conformsTo_self (k : Kind) : k.conformsTo k.name := by
  cases k <;> decide

theorem name_injective {a b : Kind} (h : a.name = b.name) : a = b := by
  cases a <;> cases b <;> first | rfl | exact absurd h (by decide)

end Kind

end Metamodel
