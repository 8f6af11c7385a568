import Metamodel.Graph.Reach
import Metamodel.Model.Containment
import Metamodel.Model.Links

/-!
The supertype relation: assignability, ancestors, and the order of classes.

Classes are ordered by the length of their longest supertype chain, then by name, then by id. In an
acyclic hierarchy that puts every supertype before its subtypes.
-/

namespace Metamodel.Model

/-- The ids of all elements. -/
def ids (m : Model) : List ElementId := (List.range m.size).map ElementId.mk

/-- Every proper or improper transitive supertype reached from these classes, each once. -/
def superClosure (m : Model) (start : List ElementId) : List ElementId :=
  Graph.reach m.superTypes m.ids start

/-- Whether `sub` is `cls` or one of its transitive subtypes. -/
def isAssignable (m : Model) (cls sub : ElementId) : Bool :=
  cls = sub || (m.superClosure (m.superTypes sub)).contains cls

/-- The number of classes on the longest supertype chain that starts at the class; 1 for a root. -/
def superChain (m : Model) (cls : ElementId) : Nat := Graph.longestPath m.superTypes m.ids cls

/-- What classes are sorted by. -/
structure ClassKey where
  chain : Nat
  name : String
  id : ElementId
  deriving DecidableEq

namespace ClassKey

def compare (a b : ClassKey) : Ordering :=
  (Ord.compare a.chain b.chain).then <|
    (Ord.compare a.name b.name).then (Ord.compare a.id.index b.id.index)

def le (a b : ClassKey) : Bool := (compare a b).isLE

end ClassKey

def classKey (m : Model) (cls : ElementId) : ClassKey := ⟨m.superChain cls, m.label cls, cls⟩

/-- Supertypes come before their subtypes; classes that are not related are compared by their
keys. -/
def compareClasses (m : Model) (a b : ElementId) : Ordering :=
  if a = b then .eq
  else if m.isAssignable a b then .lt
  else if m.isAssignable b a then .gt
  else (m.classKey a).compare (m.classKey b)

/-- Classes in the order of their keys. -/
def sortClasses (m : Model) (classes : List ElementId) : List ElementId :=
  ((classes.map m.classKey).mergeSort ClassKey.le).map (·.id)

/-- The classes of a package in class order. -/
def sortedClasses (m : Model) (package : ElementId) : List ElementId :=
  m.sortClasses (m.members .classes package)

/-- The proper transitive supertypes of a class in class order. -/
def ancestors (m : Model) (cls : ElementId) : List ElementId :=
  m.sortClasses ((m.superClosure (m.superTypes cls)).erase cls)

/-- The attributes and then the references that an element holds itself. -/
def ownFeatures (m : Model) (cls : ElementId) : List ElementId :=
  m.members .attributes cls ++ m.members .references cls

/-- The features of a class and its ancestors, those of ancestors first. -/
def allFeatures (m : Model) (cls : ElementId) : List ElementId :=
  (m.ancestors cls ++ [cls]).flatMap m.ownFeatures

end Metamodel.Model
