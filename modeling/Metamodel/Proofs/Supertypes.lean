import Metamodel.Model.Inheritance
import Metamodel.Proofs.Components
import Metamodel.Proofs.Ownership

/-!
The supertype relation, and what the walks along supertype links find.

The walks only follow resolved links, enter every element once and work on any graph, so cycles need
no special care. An element reaches itself without a step when it is asked whether it is assignable,
and never when its ancestors are listed.

Results:
1. `mem_superClosure`: what is reached from given elements.
2. `isAssignable_iff`, `mem_ancestors`: assignability and ancestry as paths.
-/

namespace Metamodel

open Relation (ReflTransGen TransGen)

namespace Graph

/-- What is reached is what paths lead to. -/
theorem mem_reach {α : Type} [DecidableEq α] {next : α → List α} {nodes pending : List α}
    (inner : ∀ a b, b ∈ next a → a ∈ nodes) {x : α} :
    x ∈ reach next nodes pending ↔ x ∈ nodes ∧ ∃ a ∈ pending, Path next a x := by
  constructor
  · exact fun reached => ⟨reach_subset next nodes pending reached, exists_path_of_mem_reach reached⟩
  · rintro ⟨known, a, waiting, path⟩
    induction path with
    | refl => exact mem_reach_of_mem_pending waiting known
    | @tail b x _ edge ih => exact mem_reach_of_mem_next (ih (inner b x edge)) edge known

end Graph

namespace Model

/-- The second element is a direct supertype of the first, by a resolved link. -/
def Inherits (m : Model) (sub sup : ElementId) : Prop := .resolved sup ∈ m.links .superTypes sub

variable {m : Model} {a b c x sub sup : ElementId}

theorem mem_superTypes : sup ∈ m.superTypes sub ↔ m.Inherits sub sup := by
  simp only [superTypes, List.mem_filterMap, Inherits]
  constructor
  · rintro ⟨link, held, points⟩
    cases link with
    | symbolic uri => cases points
    | resolved target =>
      cases points
      exact held
  · exact fun held => ⟨_, held, rfl⟩

theorem path_superTypes : Graph.Path m.superTypes = ReflTransGen m.Inherits := by
  unfold Graph.Path
  simp only [mem_superTypes]

theorem mem_ids : x ∈ m.ids ↔ ∃ e, m.get? x = some e := by
  obtain ⟨i⟩ := x
  simp [ids, get?, size, ← Option.isSome_iff_exists]

theorem nodup_ids (m : Model) : m.ids.Nodup :=
  List.nodup_range.map fun _ _ same => congrArg ElementId.index same

/-- Only elements of the model have supertypes. -/
theorem Inherits.mem_ids (step : m.Inherits sub sup) : sub ∈ m.ids := by
  rw [Model.mem_ids]
  unfold Inherits links body? at step
  cases found : m.get? sub with
  | none => simp [found] at step
  | some e => exact ⟨e, rfl⟩

theorem mem_superClosure {start : List ElementId} :
    x ∈ m.superClosure start ↔ x ∈ m.ids ∧ ∃ a ∈ start, ReflTransGen m.Inherits a x := by
  rw [superClosure, Graph.mem_reach fun a b edge => (mem_superTypes.mp edge).mem_ids,
    path_superTypes]

/-- What is reached from the supertypes of a class is what is above it. -/
theorem mem_superClosure_superTypes :
    x ∈ m.superClosure (m.superTypes c) ↔ x ∈ m.ids ∧ TransGen m.Inherits c x := by
  simp only [mem_superClosure, mem_superTypes, TransGen.head'_iff]

theorem isAssignable_iff :
    m.isAssignable a b ↔ a = b ∨ a ∈ m.ids ∧ TransGen m.Inherits b a := by
  simp [isAssignable, mem_superClosure_superTypes]

theorem isAssignable_trans (ab : m.isAssignable a b) (bc : m.isAssignable b c) :
    m.isAssignable a c := by
  rw [isAssignable_iff] at ab bc ⊢
  rcases ab with rfl | ⟨known, above⟩
  · exact bc
  · rcases bc with rfl | ⟨-, above'⟩
    · exact .inr ⟨known, above⟩
    · exact .inr ⟨known, above'.trans above⟩

theorem nodup_superClosure (m : Model) (start : List ElementId) : (m.superClosure start).Nodup :=
  Graph.nodup_reach start m.nodup_ids

theorem nodup_ancestors (m : Model) (c : ElementId) : (m.ancestors c).Nodup :=
  (sortClasses_perm _).nodup_iff.mpr ((m.nodup_superClosure _).erase c)

/-- The ancestors of a class are the other elements above it. -/
theorem mem_ancestors : x ∈ m.ancestors c ↔ x ∈ m.ids ∧ x ≠ c ∧ TransGen m.Inherits c x := by
  rw [ancestors, (sortClasses_perm _).mem_iff, (m.nodup_superClosure _).mem_erase_iff,
    mem_superClosure_superTypes]
  tauto

/-- The class itself is listed once, after its ancestors. -/
theorem nodup_owners (m : Model) (c : ElementId) : (m.ancestors c ++ [c]).Nodup := by
  refine (m.nodup_ancestors c).append (List.nodup_singleton c) ?_
  rw [List.disjoint_singleton, mem_ancestors]
  exact fun listed => listed.2.1 rfl

/-- A class and its ancestors are what paths of any length lead to. -/
theorem mem_ancestors_append_self (known : x ∈ m.ids) :
    x ∈ m.ancestors c ++ [c] ↔ ReflTransGen m.Inherits c x := by
  rw [List.mem_append, List.mem_singleton, mem_ancestors, Relation.reflTransGen_iff_eq_or_transGen]
  tauto

/-- Nothing is above a class without supertypes. -/
theorem not_above_of_no_superTypes (none : m.superTypes sub = []) : ¬ TransGen m.Inherits sub x := by
  intro path
  obtain ⟨next, step, -⟩ := Relation.TransGen.head'_iff.mp path
  rw [← mem_superTypes, none] at step
  cases step

/-- A class without supertypes has its own features only. -/
theorem allFeatures_of_no_superTypes (none : m.superTypes c = []) :
    m.allFeatures c = m.ownFeatures c := by
  have noAncestors : m.ancestors c = [] := by
    refine List.eq_nil_iff_forall_not_mem.mpr fun x above => ?_
    exact not_above_of_no_superTypes none (mem_ancestors.mp above).2.2
  rw [allFeatures, noAncestors, List.nil_append, List.flatMap_singleton]

/-- The only supertype of a class is its only ancestor if it has no supertypes itself. -/
theorem ancestors_of_one_superType (one : m.superTypes c = [sup]) (none : m.superTypes sup = [])
    (known : sup ∈ m.ids) (ne : sup ≠ c) : m.ancestors c = [sup] := by
  have above (x : ElementId) : x ∈ m.ancestors c ↔ x = sup := by
    rw [mem_ancestors]
    constructor
    · rintro ⟨-, -, path⟩
      obtain ⟨next, step, rest⟩ := Relation.TransGen.head'_iff.mp path
      rw [← mem_superTypes, one, List.mem_singleton] at step
      subst step
      rcases Relation.reflTransGen_iff_eq_or_transGen.mp rest with same | further
      · exact same
      · exact absurd further (not_above_of_no_superTypes none)
    · rintro rfl
      exact ⟨known, ne, .single (mem_superTypes.mp (one ▸ List.mem_singleton_self x))⟩
  refine List.perm_singleton.mp ((List.perm_ext_iff_of_nodup (m.nodup_ancestors c)
    (List.nodup_singleton sup)).mpr fun x => ?_)
  rw [above, List.mem_singleton]

/-- A class with one supertype that has none itself has the features of both. -/
theorem allFeatures_of_one_superType (one : m.superTypes c = [sup]) (none : m.superTypes sup = [])
    (known : sup ∈ m.ids) (ne : sup ≠ c) :
    m.allFeatures c = m.ownFeatures sup ++ m.ownFeatures c := by
  rw [allFeatures, ancestors_of_one_superType one none known ne]
  simp only [List.singleton_append, List.flatMap_cons, List.flatMap_nil, List.append_nil]

end Model

end Metamodel
