import Metamodel.Model.Containment

/-!
Finding elements by name: the members of one element, and paths through several.
-/

namespace Metamodel.Model

/-- The members that can be named below an element that is not a package, in the order of
preference. -/
def namedMembers (m : Model) (id : ElementId) : List ElementId :=
  match m.kind? id with
  | some .eClass =>
    m.members .attributes id ++ m.members .references id ++ m.members .operations id ++
      m.members .typeParameters id
  | some .eEnum => m.members .literals id
  | some .eOperation => m.members .parameters id ++ m.members .typeParameters id
  | some .eDataType => m.members .typeParameters id
  | _ => []

/-- The member with this name. A package prefers classes to data types and those to subpackages, and
knows them by the names under which they were added. -/
def memberNamed? (m : Model) (id : ElementId) (name : String) : Option ElementId :=
  match m.package? id with
  | some p => p.classes.get? name <|> p.dataTypes.get? name <|> p.subpackages.get? name
  | none => (m.namedMembers id).find? fun member => m.label member = name

/-- The element that a path of names leads to. -/
def follow? (m : Model) (id : ElementId) : List String → Option ElementId
  | [] => some id
  | name :: path => (m.memberNamed? id name).bind fun member => m.follow? member path

/-- A package and the packages nested in it, at most `depth` levels down, outer ones first. -/
def packageTreeWithin (m : Model) : Nat → ElementId → List ElementId
  | 0, _ => []
  | depth + 1, id => id :: (m.members .subpackages id).flatMap (m.packageTreeWithin depth)

/-- A package and the packages nested in it, outer ones first. -/
def packageTree (m : Model) (id : ElementId) : List ElementId := m.packageTreeWithin m.size id

/-- Whether the element is a package with this namespace prefix. -/
def hasNsPrefix (m : Model) (nsPrefix : String) (id : ElementId) : Bool :=
  (m.package? id).bind (·.nsPrefix) = some nsPrefix

end Metamodel.Model
