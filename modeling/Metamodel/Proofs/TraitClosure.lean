import Metamodel.Proofs.ClassOrder
import Metamodel.Proofs.Getters

/-!
The traits that a struct implements.

A trait names the traits of the direct supertypes of its class, and a struct implements those of all
ancestors of its class and of the class itself. Both leave the classes of the standard package out,
each from the package that it is written in, so the same trait may go by two paths. What is compared
here are the classes, and the paths as they are written from either side.

Results:
1. `supertraits_eq`, `traits_eq`: the paths on both sides, by class.
2. `text_of_structItem`, `text_of_traitItem`: where these paths are written.
3. `traits_closed`: with a trait, a struct implements everything that the trait builds on.
-/

namespace Metamodel.Scope

open Generated Model
open Relation (ReflTransGen TransGen)

variable {s t : Scope} {cls owner x : ElementId} {fields : List FieldLayout}

/-- Whether an element has a trait: it is a class outside the standard package. -/
def hasTrait (s : Scope) (x : ElementId) : Bool := s.model.isClass x && !s.isStandard x

theorem hasTrait_iff : s.hasTrait x ↔ s.model.isClass x ∧ s.isStandard x = false := by
  simp [hasTrait]

/-- Which elements have a trait does not depend on the package that is being written. -/
theorem hasTrait_congr (same : t.model = s.model) : t.hasTrait = s.hasTrait := by
  funext x
  unfold hasTrait isStandard
  rw [same]

theorem ofClassifier_of_hasTrait (has : s.hasTrait x) : s.ofClassifier x = .trait (s.path x) := by
  obtain ⟨isClass, outside⟩ := hasTrait_iff.mp has
  have known : s.model.kind? x = some .eClass := of_decide_eq_true isClass
  simp [ofClassifier, known, outside]

theorem ofClassifier_ne_trait (none : s.hasTrait x = false) (path : String) :
    s.ofClassifier x ≠ .trait path := by
  unfold ofClassifier
  cases known : s.model.kind? x with
  | none => simp
  | some k =>
    cases k
    case eClass => simp_all [hasTrait, Model.isClass]
    case eDataType => simp only; split <;> simp
    all_goals simp

/-- What is listed for the elements of a list that have a trait. -/
theorem filterMap_eq_map_filter {α : Type} {f : ElementId → Option α} {g : ElementId → α}
    (listed : ∀ x, s.hasTrait x → f x = some (g x)) (left : ∀ x, s.hasTrait x = false → f x = none)
    (l : List ElementId) : l.filterMap f = (l.filter s.hasTrait).map g := by
  rw [← List.filterMap_eq_map, List.filterMap_filter]
  refine List.filterMap_congr fun x _ => ?_
  cases has : s.hasTrait x with
  | true => exact listed x has
  | false => exact left x has

/-- A trait builds on the traits of its direct supertypes. -/
theorem supertraits_eq (s : Scope) (cls : ElementId) :
    s.supertraits cls = ((s.model.superTypes cls).filter s.hasTrait).map s.path := by
  refine filterMap_eq_map_filter (fun x has => ?_) (fun x none => ?_) _
  · rw [ofClassifier_of_hasTrait has]
  · split
    · next path same => exact absurd same (ofClassifier_ne_trait none path)
    · rfl

theorem supertraits_of_traitItem {required : Trait} (done : s.traitItem owner = .ok required) :
    required.supertraits = s.supertraits owner := by
  obtain ⟨getters, methods, -, -, rfl⟩ := traitItem_ok done
  rfl

/-- A struct implements the traits of the ancestors of its class and then that of the class. -/
theorem traits_eq {struct : Struct} (done : s.structItem cls = .ok struct)
    (laid : s.fields cls = .ok fields) :
    struct.traits = ((s.model.ancestors cls ++ [cls]).filter s.hasTrait).map fun x =>
      ⟨s.path x, (fields.filter (s.isDeclaredBy x)).map s.getterBody⟩ := by
  obtain ⟨fields', laid', traits⟩ := traits_of_structItem done
  cases laid.symm.trans laid'
  rw [traits]
  refine filterMap_eq_map_filter (fun x has => ?_) (fun x none => ?_) _
  · obtain ⟨isClass, outside⟩ := hasTrait_iff.mp has
    exact traitBody?_eq isClass outside
  · unfold traitBody?
    split
    · next path same => exact absurd same (ofClassifier_ne_trait none path)
    · rfl

/-- Behind its own parts the text of a struct has one block for each of these traits. -/
theorem text_of_structItem {struct : Struct} (done : s.structItem cls = .ok struct)
    (laid : s.fields cls = .ok fields) :
    struct.text = struct.ownText ++
      String.join (((s.model.ancestors cls ++ [cls]).filter s.hasTrait).map fun x =>
        "\n" ++ blockOrBraces 0 ("impl " ++ s.path x ++ " for " ++ struct.name)
          (spaced ((fields.filter (s.isDeclaredBy x)).map fun f =>
            Struct.getterText (s.getterBody f)))) := by
  rw [struct.text_eq, traits_eq done laid, List.map_map]
  simp only [Function.comp_def, Struct.traitText, List.map_map]

/-- The first line of a trait names the traits of its direct supertypes. -/
theorem text_of_traitItem {required : Trait} (done : s.traitItem owner = .ok required)
    {supers : List String} (named : required.supertraits = supers) :
    required.text = summaryLine 0 required.summary ++
      block 0 ("pub trait " ++ s.model.label owner ++
          if supers = [] then "" else ": " ++ " + ".intercalate supers)
        (spaced (required.getters.map Trait.getterText ++
          required.methods.map Trait.methodText)) := by
  rw [required.text_eq, name_of_traitItem done, named]

/-- The struct of a class implements the traits of exactly the classes outside the standard package
among the class and everything above it, each once. Whatever the trait of one of them builds on,
from whichever package it is written, is the trait of another one. So it is in the texts: behind
its own parts a struct has one block for each of these classes, which implements the trait of the
class for the struct, and the first line of a trait names the traits of some of these classes. -/
theorem traits_closed (s : Scope) (cls : ElementId) :
    ∃ owners : List ElementId, owners.Nodup ∧
      (∀ x, x ∈ owners ↔
        ReflTransGen s.model.Inherits cls x ∧ s.model.isClass x ∧ s.isStandard x = false) ∧
      ((∀ feature ∈ s.model.allFeatures cls, s.model.Linked feature) →
        ∃ struct, s.structItem cls = .ok struct) ∧
      (∀ struct, s.structItem cls = .ok struct →
        struct.name = s.settings.naming.struct (s.model.label cls) ∧
        struct.traits.map TraitBody.trait = owners.map s.path ∧
        ∃ fields, s.fields cls = .ok fields ∧
          struct.text = struct.ownText ++ String.join (owners.map fun x =>
            "\n" ++ blockOrBraces 0 ("impl " ++ s.path x ++ " for " ++ struct.name)
              (spaced ((fields.filter (s.isDeclaredBy x)).map fun f =>
                Struct.getterText (s.getterBody f))))) ∧
      ∀ t : Scope, t.model = s.model → ∀ owner ∈ owners, ∀ required,
        t.traitItem owner = .ok required →
          ∃ above, above ⊆ owners ∧ required.supertraits = above.map t.path ∧
            required.text = summaryLine 0 required.summary ++
              block 0 ("pub trait " ++ t.model.label owner ++
                  if above = [] then "" else ": " ++ " + ".intercalate (above.map t.path))
                (spaced (required.getters.map Trait.getterText ++
                  required.methods.map Trait.methodText)) := by
  have member (x : ElementId) : x ∈ (s.model.ancestors cls ++ [cls]).filter s.hasTrait ↔
      ReflTransGen s.model.Inherits cls x ∧ s.model.isClass x ∧ s.isStandard x = false := by
    rw [List.mem_filter, hasTrait_iff]
    refine and_congr_left fun isTrait => mem_ancestors_append_self (mem_ids.mpr ?_)
    obtain ⟨e, found, -⟩ := get?_of_kind? (of_decide_eq_true isTrait.1)
    exact ⟨e, found⟩
  refine ⟨_, (s.model.nodup_owners cls).filter s.hasTrait, member,
    succeeds_structItem_of_features, fun struct done => ?structs, ?closed⟩
  case structs =>
    obtain ⟨fields, laid, -⟩ := traits_of_structItem done
    refine ⟨name_of_structItem done, ?_, fields, laid, text_of_structItem done laid⟩
    rw [traits_eq done laid, List.map_map]
    rfl
  case closed =>
    intro t same owner isOwner required done
    have supers : required.supertraits =
        ((s.model.superTypes owner).filter s.hasTrait).map t.path := by
      rw [supertraits_of_traitItem done, supertraits_eq, hasTrait_congr same, same]
    refine ⟨(s.model.superTypes owner).filter s.hasTrait, fun sup isSuper => ?_, supers, ?_⟩
    · obtain ⟨direct, has⟩ := List.mem_filter.mp isSuper
      have path := ((member owner).mp isOwner).1.tail (mem_superTypes.mp direct)
      exact (member sup).mpr ⟨path, hasTrait_iff.mp has⟩
    · simpa only [List.map_eq_nil_iff] using text_of_traitItem done supers

/-- The package of the diamond. -/
def shapesScope : Scope := ⟨shapes, {}, some ⟨0⟩⟩

/-- The struct of the common subclass in the diamond implements the trait of the class on top once, and
the traits that its own trait builds on. -/
theorem traits_closed_shapes :
    ∃ (owners : List ElementId) (struct : Struct) (fields : List FieldLayout) (required : Trait),
      owners.Nodup ∧ (∀ x ∈ [⟨1⟩, ⟨2⟩, ⟨3⟩, ⟨4⟩], x ∈ owners) ∧
      shapesScope.structItem ⟨4⟩ = .ok struct ∧
      struct.traits.map TraitBody.trait = owners.map shapesScope.path ∧
      struct.text = struct.ownText ++ String.join (owners.map fun x =>
        "\n" ++ blockOrBraces 0 ("impl " ++ shapesScope.path x ++ " for " ++ struct.name)
          (spaced ((fields.filter (shapesScope.isDeclaredBy x)).map fun f =>
            Struct.getterText (shapesScope.getterBody f)))) ∧
      shapesScope.traitItem ⟨4⟩ = .ok required ∧
      ∃ above : List ElementId,
        above ⊆ owners ∧ required.supertraits = above.map shapesScope.path := by
  have resolved : ∀ id field, ∀ link ∈ shapes.links field id, link.isResolved :=
    isResolved_of_elements (by decide +kernel)
  have linked (id : ElementId) : shapesScope.model.Linked id := fun x _ => resolved x
  obtain ⟨owners, once, member, written, traits, closed⟩ := traits_closed shapesScope ⟨4⟩
  obtain ⟨struct, isStruct⟩ := written fun feature _ => linked feature
  obtain ⟨required, isTrait⟩ := shapesScope.succeeds_traitItem (linked ⟨4⟩)
  obtain ⟨supers, generated⟩ :
      (⟨2⟩ ∈ shapes.superTypes ⟨4⟩ ∧ ⟨3⟩ ∈ shapes.superTypes ⟨4⟩ ∧ ⟨1⟩ ∈ shapes.superTypes ⟨2⟩) ∧
      ∀ x ∈ [⟨1⟩, ⟨2⟩, ⟨3⟩, ⟨4⟩], shapesScope.model.isClass x ∧ shapesScope.isStandard x = false := by
    decide +kernel
  obtain ⟨round, flat, shape⟩ := supers
  have toRound : ReflTransGen shapesScope.model.Inherits ⟨4⟩ ⟨2⟩ := .single (mem_superTypes.mp round)
  have above : ∀ x ∈ [⟨1⟩, ⟨2⟩, ⟨3⟩, ⟨4⟩], ReflTransGen shapesScope.model.Inherits ⟨4⟩ x := by
    simp only [List.forall_mem_cons, List.not_mem_nil, false_implies, implies_true, and_true]
    exact ⟨toRound.tail (mem_superTypes.mp shape), toRound, .single (mem_superTypes.mp flat), .refl⟩
  have owned : ∀ x ∈ [⟨1⟩, ⟨2⟩, ⟨3⟩, ⟨4⟩], x ∈ owners :=
    fun x listed => (member x).mpr ⟨above x listed, generated x listed⟩
  obtain ⟨-, paths, fields, -, text⟩ := traits struct isStruct
  obtain ⟨above, within, supers, -⟩ :=
    closed shapesScope rfl ⟨4⟩ (owned ⟨4⟩ (by decide)) required isTrait
  exact ⟨owners, struct, fields, required, once, owned, isStruct, paths, text, isTrait, above,
    within, supers⟩

end Metamodel.Scope
