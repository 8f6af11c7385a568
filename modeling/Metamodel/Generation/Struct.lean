import Metamodel.Generation.Trait

/-!
The structs of concrete classes.

A struct has a field for every feature of the class and its ancestors. Features whose names become
the same identifier share one field, which is laid out for the first of them. The struct implements
the trait of the class and those of its ancestors.
-/

namespace Metamodel

/-- A field of a struct and the features that are stored in it. -/
structure FieldLayout where
  /-- The feature that the field is laid out for. -/
  feature : ElementId
  /-- The other features, in order. -/
  shared : List ElementId := []
  ident : String
  /-- The name of the feature in snake case, which methods are named after. -/
  stem : String
  type : FieldType
  deriving DecidableEq, Repr

namespace FieldLayout

/-- Every feature that is stored in the field, the first one first. -/
def declaredBy (f : FieldLayout) : List ElementId := f.feature :: f.shared

/-- Stores one more feature in the field with this identifier. -/
def share (ident : String) (feature : ElementId) (fields : List FieldLayout) : List FieldLayout :=
  fields.map fun f => if f.ident = ident then { f with shared := f.shared ++ [feature] } else f

end FieldLayout

namespace Scope

open Generated

/-- The field for a feature. -/
def layout (s : Scope) (feature : ElementId) : Except Error FieldLayout := do
  let name := s.model.label feature
  let type ← s.fieldType feature
  return {
    feature := feature
    ident := s.settings.naming.identifier name
    stem := Identifier.snakeCase name
    type := type }

/-- Adds a feature to the fields of a struct: to the one with its identifier, or as a new one. -/
def addFeature (s : Scope) (fields : List FieldLayout) (feature : ElementId) :
    Except Error (List FieldLayout) :=
  let ident := s.settings.naming.identifier (s.model.label feature)
  if fields.any fun f => f.ident = ident then .ok (FieldLayout.share ident feature fields)
  else do return fields ++ [← s.layout feature]

/-- The fields of the struct of a class. -/
def fields (s : Scope) (cls : ElementId) : Except Error (List FieldLayout) :=
  (s.model.allFeatures cls).foldlM s.addFeature []

/-- Sets the field. -/
def setter (s : Scope) (f : FieldLayout) : Mutator where
  name := "set_" ++ f.stem
  parameters := [⟨f.ident, f.type.designation.render s.settings.types⟩]
  statement :=
    if f.type.isOptional then s!"self.{f.ident} = Some({f.ident});"
    else s!"self.{f.ident} = {f.ident};"

/-- Puts the field back to the value that it begins with. -/
def unsetter (f : FieldLayout) : Mutator where
  name := "unset_" ++ f.stem
  parameters := []
  statement := s!"self.{f.ident} = {f.type.initial};"

/-- Adds one value to a field that holds many. -/
def adder? (s : Scope) (f : FieldLayout) : Option Mutator :=
  let one := Identifier.singular f.stem
  match f.type.designation with
  | .many element =>
    let argument := Identifier.escapeKeyword one s.settings.naming.keywordEscape
    let statement :=
      if s.settings.types.manyIsVector then s!"self.{f.ident}.push({argument});"
      else s!"self.{f.ident}.extend(std::iter::once({argument}));"
    some ⟨"add_" ++ one, [⟨argument, element.render s.settings.types⟩], statement⟩
  | .stringMap =>
    some ⟨"add_" ++ one, [⟨"key", "String"⟩, ⟨"value", "String"⟩],
      s!"self.{f.ident}.insert(key, value);"⟩
  | _ => none

/-- The methods that change a field; none for a feature that cannot be changed. -/
def mutators (s : Scope) (f : FieldLayout) : List Mutator :=
  match s.model.feature? f.feature with
  | none => []
  | some feature =>
    if !feature.changeable then []
    else s.setter f :: (if feature.unsettable then [unsetter f] else []) ++ (s.adder? f).toList

/-- Whether one of the features of a field is declared by a class. -/
def isDeclaredBy (s : Scope) (cls : ElementId) (f : FieldLayout) : Bool :=
  f.declaredBy.any fun feature =>
    ((s.model.feature? feature).bind (·.containingClass)) = some cls

/-- The getter of a field. -/
def getterBody (s : Scope) (f : FieldLayout) : GetterBody where
  name := s.settings.naming.getter (s.model.label f.feature) f.type.designation.isBoolean
  returns := f.type.getterType s.settings.types
  expression := f.type.getterBody f.ident

/-- The implementation of the trait of a class, if it has one, by a struct with these fields. -/
def traitBody? (s : Scope) (fields : List FieldLayout) (cls : ElementId) : Option TraitBody :=
  match s.ofClassifier cls with
  | .trait path => some ⟨path, (fields.filter (s.isDeclaredBy cls)).map s.getterBody⟩
  | _ => none

/-- The struct of a class. -/
def structItem (s : Scope) (cls : ElementId) : Except Error Struct := do
  let fields ← s.fields cls
  return {
    name := s.settings.naming.struct (s.model.label cls)
    fields := fields.map fun f =>
      { name := f.ident, type := f.type.render s.settings.types, initial := f.type.initial }
    mutators := fields.flatMap s.mutators
    traits := (s.model.ancestors cls ++ [cls]).filterMap (s.traitBody? fields) }

/-- Whether objects of a class exist that are of no subclass. -/
def isConcrete (m : Model) (cls : ElementId) : Bool :=
  (m.class? cls).any fun c => !c.isAbstract && !c.isInterface

/-- The structs that an element calls for by its kind, at most `depth` levels down. A package calls
for those of its classes, in class order. -/
def structItemsWithin (s : Scope) : Nat → ElementId → Except Error (List Item)
  | 0, _ => .ok []
  | depth + 1, id =>
    match s.model.kind? id with
    | some .eClass => if isConcrete s.model id then return [.struct (← s.structItem id)] else .ok []
    | some .ePackage => do
      return (← (s.model.sortedClasses id).mapM (s.structItemsWithin depth)).flatten
    | _ => .ok []

/-- The structs of the concrete classes of a package. -/
def structItems (s : Scope) (package : ElementId) : Except Error (List Item) :=
  s.structItemsWithin s.model.size package

end Scope

end Metamodel
