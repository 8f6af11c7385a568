import Metamodel.Generation.Item
import Metamodel.Generation.Scope
import Metamodel.Generation.Summary
import Metamodel.Model.Inheritance

/-!
The interface of a package: its enums, and a trait for each of its classes.

A trait has a getter for each feature that the class declares, and a method for each operation whose
name is not taken by then.
-/

namespace Metamodel

namespace Model

/-- Whether an operation is named like `setName` and has one parameter. -/
def isSetter (m : Model) (operation : ElementId) : Bool :=
  let rest := Identifier.after? "set" (m.label operation)
  let named := (rest.bind (·.toList.head?)).any Char.isUpper
  named && (m.members .parameters operation).length = 1

end Model

namespace Scope

open Generated

/-- The summary of an element, unless summaries are left out. -/
def summary? (s : Scope) (id : ElementId) : Option String :=
  if s.settings.emit.summaries then some (s.model.summary id) else none

/-- The enum of an enum. -/
def enumItem (s : Scope) (id : ElementId) : Enum where
  name := s.model.label id
  summary := s.summary? id
  variants := (s.model.enumVariants id).map fun (literal, variant) =>
    { name := variant
      literal := s.model.literalText literal
      value := (((s.model.body? literal).bind Body.enumLiteral?).elim 0 (·.value)) }

/-- The getter for a feature. -/
def getter (s : Scope) (feature : ElementId) : Except Error Getter := do
  let type ← s.fieldType feature
  return {
    summary := s.summary? feature
    name := s.settings.naming.getter (s.model.label feature) type.designation.isBoolean
    returns := type.getterType s.settings.types }

/-- A parameter of an operation. -/
def parameter (s : Scope) (id : ElementId) : Except Error Typed := do
  let designation ← s.designation id
  return ⟨s.settings.naming.identifier (s.model.label id), designation.render s.settings.types⟩

/-- The name of the method for an operation with this result. -/
def methodName (s : Scope) (operation : ElementId) (returns : Designation) : String :=
  s.settings.naming.operation (s.model.label operation) (s.model.isSetter operation)
    returns.isBoolean

/-- The method for an operation of a class. -/
def method (s : Scope) (cls operation : ElementId) (returns : Designation) :
    Except Error Method := do
  let parameters ← (s.model.members .parameters operation).mapM s.parameter
  return {
    summary := s.summary? operation
    name := s.methodName operation returns
    mutates := s.model.isSetter operation
    parameters := parameters
    returns := if returns = .unit then none else some (returns.render s.settings.types)
    origin := s.model.label cls ++ "::" ++ s.model.label operation }

/-- The methods for operations of a class, without those whose names are taken. -/
def methods (s : Scope) (cls : ElementId) :
    List String → List ElementId → Except Error (List Method)
  | _, [] => .ok []
  | taken, operation :: rest => do
    let returns ← s.designation operation
    let name := s.methodName operation returns
    -- The parameters of a method that is left out are never looked at.
    if taken.contains name then s.methods cls taken rest
    else
      let method ← s.method cls operation returns
      return method :: (← s.methods cls (name :: taken) rest)

/-- The traits of the direct supertypes. -/
def supertraits (s : Scope) (cls : ElementId) : List String :=
  (s.model.superTypes cls).filterMap fun sup =>
    match s.ofClassifier sup with
    | .trait path => some path
    | _ => none

/-- The trait of a class. -/
def traitItem (s : Scope) (cls : ElementId) : Except Error Trait := do
  let getters ← (s.model.ownFeatures cls).mapM s.getter
  let methods ← s.methods cls (getters.map (·.name)) (s.model.members .operations cls)
  return {
    name := s.model.label cls
    summary := s.summary? cls
    supertraits := s.supertraits cls
    getters := getters
    methods := methods }

/-- The items of the interface that an element calls for by its kind, at most `depth` levels down. A
package calls for those of its data types and then those of its classes, in class order. -/
def interfaceItemsWithin (s : Scope) : Nat → ElementId → Except Error (List Item)
  | 0, _ => .ok []
  | depth + 1, id =>
    match s.model.kind? id with
    | some .eEnum => .ok [.enum (s.enumItem id)]
    | some .eClass => return [.trait (← s.traitItem id)]
    | some .ePackage => do
      let members := s.model.members .dataTypes id ++ s.model.sortedClasses id
      return (← members.mapM (s.interfaceItemsWithin depth)).flatten
    | _ => .ok []

/-- The enums and traits of a package. -/
def interfaceItems (s : Scope) (package : ElementId) : Except Error (List Item) :=
  s.interfaceItemsWithin s.model.size package

end Scope

end Metamodel
