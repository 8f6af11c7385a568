import Metamodel.Decimal.Integer
import Metamodel.Element
import Metamodel.Error
import Metamodel.Reference

/-!
The attributes that documents may give an element, and what each sets.

A property is declared by one metaclass and belongs to every kind below it. An attribute is accepted
if the element's kind has a property with that key and the value is valid for the property.

Results:
1. `find?_eq_some_iff`: which property an attribute of a kind stands for.
-/

namespace Metamodel

/-- How the value of a property is written. -/
inductive PropertyFormat
  | text
  | flag
  | integer
  | link
  | links
  deriving DecidableEq, Repr

inductive Property
  | name
  | nsUri
  | nsPrefix
  | factoryInstance
  | instanceClassName
  | instanceTypeName
  | isAbstract
  | isInterface
  | superTypes
  | serializable
  | value
  | literal
  | eType
  | lowerBound
  | upperBound
  | ordered
  | unique
  | changeable
  | defaultValueLiteral
  | derived
  | transient
  | unsettable
  | volatile
  | isId
  | containment
  | opposite
  | resolveProxies
  | keys
  | exceptions
  | source
  | references
  | classifier
  | typeParameter
  deriving DecidableEq, Repr

namespace Property

def all : List Property :=
  [.name, .nsUri, .nsPrefix, .factoryInstance, .instanceClassName, .instanceTypeName, .isAbstract,
    .isInterface, .superTypes, .serializable, .value, .literal, .eType, .lowerBound, .upperBound,
    .ordered, .unique, .changeable, .defaultValueLiteral, .derived, .transient, .unsettable,
    .volatile, .isId, .containment, .opposite, .resolveProxies, .keys, .exceptions, .source,
    .references, .classifier, .typeParameter]

/-- The name of the attribute in documents. -/
def key : Property → String
  | .name => "name"
  | .nsUri => "nsURI"
  | .nsPrefix => "nsPrefix"
  | .factoryInstance => "eFactoryInstance"
  | .instanceClassName => "instanceClassName"
  | .instanceTypeName => "instanceTypeName"
  | .isAbstract => "abstract"
  | .isInterface => "interface"
  | .superTypes => "eSuperTypes"
  | .serializable => "serializable"
  | .value => "value"
  | .literal => "literal"
  | .eType => "eType"
  | .lowerBound => "lowerBound"
  | .upperBound => "upperBound"
  | .ordered => "ordered"
  | .unique => "unique"
  | .changeable => "changeable"
  | .defaultValueLiteral => "defaultValueLiteral"
  | .derived => "derived"
  | .transient => "transient"
  | .unsettable => "unsettable"
  | .volatile => "volatile"
  | .isId => "iD"
  | .containment => "containment"
  | .opposite => "eOpposite"
  | .resolveProxies => "resolveProxies"
  | .keys => "eKeys"
  | .exceptions => "eExceptions"
  | .source => "source"
  | .references => "references"
  | .classifier => "eClassifier"
  | .typeParameter => "eTypeParameter"

/-- The metaclass that declares the property. -/
def declaredBy : Property → Metaclass
  | .name => .eNamedElement
  | .nsUri | .nsPrefix | .factoryInstance => .ePackage
  | .instanceClassName | .instanceTypeName => .eClassifier
  | .isAbstract | .isInterface | .superTypes => .eClass
  | .serializable => .eDataType
  | .value | .literal => .eEnumLiteral
  | .eType | .lowerBound | .upperBound | .ordered | .unique => .eTypedElement
  | .changeable | .defaultValueLiteral | .derived | .transient | .unsettable | .volatile =>
    .eStructuralFeature
  | .isId => .eAttribute
  | .containment | .opposite | .resolveProxies | .keys => .eReference
  | .exceptions => .eOperation
  | .source | .references => .eNote
  | .classifier | .typeParameter => .eGenericType

def format : Property → PropertyFormat
  | .name | .nsUri | .nsPrefix | .instanceClassName | .instanceTypeName | .literal
  | .defaultValueLiteral | .source => .text
  | .isAbstract | .isInterface | .serializable | .ordered | .unique | .changeable | .derived
  | .transient | .unsettable | .volatile | .isId | .containment | .resolveProxies => .flag
  | .value | .lowerBound | .upperBound => .integer
  | .factoryInstance | .eType | .opposite | .classifier | .typeParameter => .link
  | .superTypes | .keys | .exceptions | .references => .links

/-- The property with this name, of whatever kind. -/
def withKey? (key : String) : Option Property := all.find? fun p => p.key = key

/-- The properties of a kind. -/
def ofKind (k : Kind) : List Property := all.filter fun p => k.isA p.declaredBy

/-- The property of a kind that an attribute stands for. -/
def find? (k : Kind) (key : String) : Option Property :=
  (withKey? key).filter fun p => k.isA p.declaredBy

theorem withKey?_key (p : Property) : withKey? p.key = some p := by
  cases p <;> rfl

theorem key_injective {p q : Property} (h : p.key = q.key) : p = q := by
  have := withKey?_key p
  rw [h, withKey?_key q] at this
  exact (Option.some.inj this).symm

theorem withKey?_eq_some_iff {key : String} {p : Property} :
    withKey? key = some p ↔ p.key = key := by
  constructor
  · intro h
    simpa using List.find?_some h
  · rintro rfl
    exact withKey?_key p

theorem find?_eq_some_iff {k : Kind} {key : String} {p : Property} :
    find? k key = some p ↔ p.key = key ∧ k.isA p.declaredBy := by
  unfold find?
  rw [Option.filter_eq_some_iff, withKey?_eq_some_iff]

end Property

namespace PropertyFormat

/-- What error messages say of the valid values, where there are invalid ones. -/
def expected : PropertyFormat → String
  | .flag => "true or false"
  | .integer => "a 32-bit integer"
  | .text | .link | .links => "a text"

/-- Exactly `true` or `false`. -/
def flag? : String → Option Bool
  | "true" => some true
  | "false" => some false
  | _ => none

/-- An integer that fits into 32 bits, with blanks around it. -/
def int32? (value : String) : Option Int32 :=
  (Decimal.int? (Text.trimChars value.toList)).bind fun i =>
    if -Int.pow 2 31 ≤ i ∧ i < Int.pow 2 31 then some (Int32.ofInt i) else none

/-- The references in a list, not yet resolved. -/
def linkList (value : String) : List Link := (Reference.splitList value).map .symbolic

end PropertyFormat

namespace Element

open PropertyFormat

/-- Changes the body only. -/
def mapBody (f : Body → Body) (e : Element) : Element := { e with body := f e.body }

/-- The element with one property set, if the value is valid. -/
def set? (e : Element) (p : Property) (value : String) : Option Element :=
  match p with
  | .name => some { e with name := some value }
  | .nsUri => some (e.mapBody (.mapPackage fun c => { c with nsUri := some value }))
  | .nsPrefix => some (e.mapBody (.mapPackage fun c => { c with nsPrefix := some value }))
  | .factoryInstance =>
    some (e.mapBody (.mapPackage fun c => { c with factoryInstance := some (.symbolic value) }))
  | .instanceClassName =>
    some (e.mapBody (.mapClassifier fun c => { c with instanceClassName := some value }))
  | .instanceTypeName =>
    some (e.mapBody (.mapClassifier fun c => { c with instanceTypeName := some value }))
  | .isAbstract =>
    (flag? value).map fun b => e.mapBody (.mapClass fun c => { c with isAbstract := b })
  | .isInterface =>
    (flag? value).map fun b => e.mapBody (.mapClass fun c => { c with isInterface := b })
  | .superTypes => some (e.mapBody (.mapClass fun c => { c with superTypes := linkList value }))
  | .serializable =>
    (flag? value).map fun b => e.mapBody (.mapDataType fun c => { c with serializable := b })
  | .value =>
    (int32? value).map fun i => e.mapBody (.mapEnumLiteral fun c => { c with value := i })
  | .literal => some (e.mapBody (.mapEnumLiteral fun c => { c with literal := some value }))
  | .eType => some (e.mapBody (.mapTyped fun c => { c with eType := some (.symbolic value) }))
  | .lowerBound =>
    (int32? value).map fun i => e.mapBody (.mapTyped fun c => { c with lowerBound := i })
  | .upperBound =>
    (int32? value).map fun i => e.mapBody (.mapTyped fun c => { c with upperBound := i })
  | .ordered => (flag? value).map fun b => e.mapBody (.mapTyped fun c => { c with ordered := b })
  | .unique => (flag? value).map fun b => e.mapBody (.mapTyped fun c => { c with unique := b })
  | .changeable =>
    (flag? value).map fun b => e.mapBody (.mapFeature fun c => { c with changeable := b })
  | .defaultValueLiteral =>
    some (e.mapBody (.mapFeature fun c => { c with defaultValueLiteral := some value }))
  | .derived => (flag? value).map fun b => e.mapBody (.mapFeature fun c => { c with derived := b })
  | .transient =>
    (flag? value).map fun b => e.mapBody (.mapFeature fun c => { c with transient := b })
  | .unsettable =>
    (flag? value).map fun b => e.mapBody (.mapFeature fun c => { c with unsettable := b })
  | .volatile =>
    (flag? value).map fun b => e.mapBody (.mapFeature fun c => { c with volatile := b })
  | .isId => (flag? value).map fun b => e.mapBody (.mapAttribute fun c => { c with isId := b })
  | .containment =>
    (flag? value).map fun b => e.mapBody (.mapReference fun c => { c with containment := b })
  | .opposite =>
    some (e.mapBody (.mapReference fun c => { c with opposite := some (.symbolic value) }))
  | .resolveProxies =>
    (flag? value).map fun b => e.mapBody (.mapReference fun c => { c with resolveProxies := b })
  | .keys => some (e.mapBody (.mapReference fun c => { c with keys := linkList value }))
  | .exceptions => some (e.mapBody (.mapOperation fun c => { c with exceptions := linkList value }))
  | .source => some (e.mapBody (.mapNote fun c => { c with source := some value }))
  | .references => some (e.mapBody (.mapNote fun c => { c with references := linkList value }))
  | .classifier =>
    some (e.mapBody (.mapGenericType fun c => { c with classifier := some (.symbolic value) }))
  | .typeParameter =>
    some (e.mapBody (.mapGenericType fun c => { c with typeParameter := some (.symbolic value) }))

/-- Gives an element one attribute of a document. -/
def applyAttribute (e : Element) (key value : String) : Except Error Element :=
  match Property.find? e.kind key with
  | none => .error (.unexpectedAttribute key e.kind.name)
  | some p =>
    match e.set? p value with
    | none => .error (.invalidAttributeValue key value p.format.expected)
    | some e' => .ok e'

/-- Gives an element attributes in order, leaving out the one with the key `skip`. A failure comes
with the element as the attributes before the offending one have left it. -/
def applyAttributes (skip : String) :
    List (String × String) → Element → Except (Error × Element) Element
  | [], e => .ok e
  | (key, value) :: rest, e =>
    if key = skip then applyAttributes skip rest e
    else
      match e.applyAttribute key value with
      | .ok e' => applyAttributes skip rest e'
      | .error error => .error (error, e)

end Element

end Metamodel
