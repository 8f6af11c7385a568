import Metamodel.Model.Inheritance

/-!
Traversal of a containment tree by metaclass.

An element is entered once for each metaclass of its lineage, most specific first, and left in the
opposite order. Between the two, each metaclass visits the members that it contributes: annotations
for a model element, literals for an enum, and so on. A package visits its data types, its classes
in class order and its subpackages.

A `Visitor` says what happens on entering and leaving, and may cut off the rest of the lineage and
the members below it.
-/

namespace Metamodel

/-- What a traversal does at each step; a failing step gives the error with the state that it
leaves. -/
structure Visitor (ε σ : Type) where
  /-- The result also says whether to go on to the more general metaclasses and the members. -/
  enter : Metaclass → ElementId → σ → Except (ε × σ) (σ × Bool) := fun _ _ s => .ok (s, true)
  leave : Metaclass → ElementId → σ → Except (ε × σ) σ := fun _ _ s => .ok s
  /-- Whether members are visited at all. -/
  descend : Bool := true

namespace Visitor

/-- Logs each step at the metaclasses that are `watched`, then fails where `fault` gives an error,
and stops short of the more general metaclasses and the members where `cut` says so. -/
def logging {ε : Type} (watched cut : Metaclass → Bool) (fault : Metaclass → ElementId → Option ε)
    (descend : Bool) : Visitor ε (Array (Metaclass × ElementId)) where
  enter c id log :=
    if watched c then
      match fault c id with
      | some error => .error (error, log.push (c, id))
      | none => .ok (log.push (c, id), !cut c)
    else .ok (log, true)
  descend := descend

end Visitor

namespace Model

/-- The members that an element has for being an instance of one metaclass, in the order of
visits. -/
def visited (m : Model) (c : Metaclass) (id : ElementId) : List ElementId :=
  match c with
  | .eModelElement => m.members .annotations id
  | .ePackage => m.members .dataTypes id ++ m.sortedClasses id ++ m.members .subpackages id
  | .eClassifier => m.members .typeParameters id
  | .eClass =>
    m.members .attributes id ++ m.members .references id ++ m.members .operations id ++
      m.members .genericSuperTypes id
  | .eEnum => m.members .literals id
  | .eTypedElement => m.members .genericType id
  | .eOperation => m.members .parameters id ++ m.members .typeParameters id
  | .eTypeParameter => m.members .bounds id
  | .eNote => ((m.body? id).bind Body.note?).elim [] (·.contents)
  | .eGenericType =>
    m.members .lowerBound id ++ m.members .upperBound id ++ m.members .typeArguments id
  | _ => []

/-- The metaclasses of an element, most specific first. -/
def lineage (m : Model) (id : ElementId) : List Metaclass := (m.kind? id).elim [] Kind.lineage

variable {ε σ : Type}

/-- Goes through a lineage of an element; `visit` goes through a member. -/
def walkLineage (m : Model) (v : Visitor ε σ) (visit : σ → ElementId → Except (ε × σ) σ)
    (id : ElementId) : List Metaclass → σ → Except (ε × σ) σ
  | [], s => .ok s
  | c :: general, s => do
    let (s, goOn) ← v.enter c id s
    let s ←
      if goOn then do
        let s ← m.walkLineage v visit id general s
        if v.descend then (m.visited c id).foldlM visit s else pure s
      else pure s
    v.leave c id s

/-- A traversal that goes at most `depth` levels down. -/
def walkWithin (m : Model) (v : Visitor ε σ) : Nat → σ → ElementId → Except (ε × σ) σ
  | 0, s, _ => .ok s
  | depth + 1, s, id => m.walkLineage v (m.walkWithin v depth) id (m.lineage id) s

/-- Traverses an element and what it contains. No containment chain without a repetition is longer
than the model. -/
def walk (m : Model) (v : Visitor ε σ) (id : ElementId) (s : σ) : Except (ε × σ) σ :=
  m.walkWithin v m.size s id

/-- Every step of a traversal of an element and what it contains. -/
def steps (m : Model) (id : ElementId) : List (Metaclass × ElementId) :=
  let everything :=
    Visitor.logging (fun _ => true) (fun _ => false) (fun _ _ => (none : Option Empty)) true
  match m.walk everything id #[] with
  | .ok log => log.toList
  | .error (error, _) => nomatch error

end Model

end Metamodel
