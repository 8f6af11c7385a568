import Metamodel.Proofs.ClassOrder
import Metamodel.Proofs.UnresolvedLinks

/-!
The features that a class has and inherits.

The ancestors of a class are sorted into class order and the class itself comes last; each of them
gives the attributes and references that it holds. Every feature has one owner, so none is listed
twice, and in an acyclic hierarchy the features of a class come after those of everything above it.

Results:
1. `SlotsSound.nodup_allFeatures`, `SlotsSound.pairwise_allFeatures`: how features are listed.
2. `supertype_closure`: assignability, ancestry and features on any hierarchy.
-/

namespace Metamodel.Model

open Relation (ReflTransGen TransGen)

variable {m : Model} {c d f owner : ElementId}

theorem mem_ownFeatures :
    f ∈ m.ownFeatures c ↔ f ∈ m.members .attributes c ∨ f ∈ m.members .references c :=
  List.mem_append

theorem mem_allFeatures :
    f ∈ m.allFeatures c ↔ ∃ owner ∈ m.ancestors c ++ [c], f ∈ m.ownFeatures owner :=
  List.mem_flatMap

/-- Where no class is above itself, no owner of features stands before one that is above it. -/
theorem pairwise_owners (acyclic : m.AcyclicAbove [c]) :
    (m.ancestors c ++ [c]).Pairwise fun a b => ¬ TransGen m.Inherits a b := by
  have reached {x : ElementId} (member : x ∈ m.ancestors c) : TransGen m.Inherits c x :=
    (mem_ancestors.mp member).2.2
  refine List.pairwise_append.mpr ⟨?_, List.pairwise_singleton _ _, fun x member y last => ?_⟩
  · refine (inClassOrder_sortClasses fun x ⟨a, member, path⟩ => acyclic x ?_).supertypes_first
    have above : a ∈ m.ancestors c := (sortClasses_perm _).mem_iff.mpr member
    exact (above_of_mem (List.mem_singleton_self c)).trans
      ((reached above).to_reflTransGen.trans path)
  · obtain rfl := List.mem_singleton.mp last
    exact fun below => acyclic y (above_of_mem last) ((reached member).trans below)

namespace SlotsSound

variable (sound : m.SlotsSound)

include sound

theorem parent?_of_ownFeature (own : f ∈ m.ownFeatures c) : m.parent? f = some c :=
  (mem_ownFeatures.mp own).elim sound.parent sound.parent

theorem feature_owner_unique (first : f ∈ m.ownFeatures c) (second : f ∈ m.ownFeatures d) :
    c = d := by
  have same := (sound.parent?_of_ownFeature first).symm.trans (sound.parent?_of_ownFeature second)
  exact Option.some.inj same

/-- Only classes hold features. -/
theorem isClass_of_ownFeature (own : f ∈ m.ownFeatures c) : m.isClass c := by
  have held {slot : Slot} (isFeatures : ∀ k, slot.isOn k = decide (k = .eClass))
      (member : f ∈ m.members slot c) : m.isClass c := by
    obtain ⟨k, known, on⟩ := Option.any_eq_true _ _ |>.mp (sound.fits member).1
    rw [isFeatures, decide_eq_true_iff] at on
    simp [isClass, known, on]
  exact (mem_ownFeatures.mp own).elim (held fun _ => rfl) (held fun _ => rfl)

theorem nodup_ownFeatures (c : ElementId) : (m.ownFeatures c).Nodup := by
  refine (sound.nodup _ c).append (sound.nodup _ c) fun f held held' => ?_
  have same : Slot.attributes = Slot.references := sound.slot_unique held held'
  cases same

theorem nodup_allFeatures (c : ElementId) : (m.allFeatures c).Nodup := by
  refine List.nodup_flatMap.mpr ⟨fun owner _ => sound.nodup_ownFeatures owner, ?_⟩
  refine (m.nodup_owners c).imp fun {a b} ne f first second => ?_
  exact ne (sound.feature_owner_unique first second)

/-- Where no class is above itself, no feature stands before one of a class above its own. -/
theorem pairwise_allFeatures (acyclic : m.AcyclicAbove [c]) :
    (m.allFeatures c).Pairwise fun f g => ∀ sub sup, f ∈ m.ownFeatures sub →
      g ∈ m.ownFeatures sup → ¬ TransGen m.Inherits sub sup := by
  refine List.pairwise_flatMap.mpr ⟨fun owner member => ?_, ?_⟩
  · refine List.pairwise_iff_forall_sublist.mpr fun {f g} both sub sup ownF ownG above => ?_
    have hereF : f ∈ m.ownFeatures owner := both.subset List.mem_cons_self
    have hereG : g ∈ m.ownFeatures owner :=
      both.subset (List.mem_cons_of_mem f List.mem_cons_self)
    rw [sound.feature_owner_unique ownF hereF, sound.feature_owner_unique ownG hereG] at above
    obtain ⟨next, step, -⟩ := TransGen.head'_iff.mp above
    have path := (mem_ancestors_append_self step.mem_ids).mp member
    exact acyclic owner ⟨c, List.mem_singleton_self c, path⟩ above
  · refine (pairwise_owners acyclic).imp fun {a b} apart f ownF g ownG sub sup subF supG above => ?_
    rw [sound.feature_owner_unique subF ownF, sound.feature_owner_unique supG ownG] at above
    exact apart above

end SlotsSound

/-- Assignability is the reflexive and transitive closure of the supertype links, and the ancestors
of a class are what the closure adds to it. The features of a class are those that it and its
ancestors hold, each listed once and its own last; where no class is above itself, those of a class
come after those of everything above it. -/
theorem supertype_closure (m : Model) :
    (∀ a b, a ∈ m.ids → (m.isAssignable a b ↔ a = b ∨ TransGen m.Inherits b a)) ∧
    (∀ a, m.isAssignable a a) ∧
    (∀ a b c, m.isAssignable a b → m.isAssignable b c → m.isAssignable a c) ∧
    (∀ c, (m.ancestors c).Nodup ∧
      ∀ x, x ∈ m.ancestors c ↔ x ∈ m.ids ∧ x ≠ c ∧ TransGen m.Inherits c x) ∧
    (m.SlotsSound → ∀ c,
      (m.allFeatures c).Nodup ∧
      (∀ f, f ∈ m.allFeatures c ↔ ∃ owner ∈ m.ancestors c ++ [c], m.isClass owner ∧
        (f ∈ m.members .attributes owner ∨ f ∈ m.members .references owner)) ∧
      (∃ inherited, m.allFeatures c = inherited ++ m.ownFeatures c) ∧
      (m.AcyclicAbove [c] → (m.allFeatures c).Pairwise fun f g => ∀ sub sup,
        f ∈ m.ownFeatures sub → g ∈ m.ownFeatures sup → ¬ TransGen m.Inherits sub sup)) := by
  refine ⟨fun a b known => ?assignable, fun a => isAssignable_iff.mpr (.inl rfl),
    fun a b c => isAssignable_trans, fun c => ⟨m.nodup_ancestors c, fun x => mem_ancestors⟩,
    fun sound c => ⟨sound.nodup_allFeatures c, fun f => ?listed,
      ⟨(m.ancestors c).flatMap m.ownFeatures, ?last⟩, sound.pairwise_allFeatures⟩⟩
  case assignable => rw [isAssignable_iff, and_iff_right known]
  case listed =>
    rw [mem_allFeatures]
    refine exists_congr fun owner => and_congr_right fun _ => ?_
    rw [← mem_ownFeatures]
    exact (and_iff_right_of_imp sound.isClass_of_ownFeature).symm
  case last =>
    rw [allFeatures, List.flatMap_append, List.flatMap_singleton]

theorem slotsSound_runInheriting (calls : List Call)
    (hierarchy : List (ElementId × List ElementId)) : (runInheriting calls hierarchy).SlotsSound := by
  unfold runInheriting
  have sound := slotsSound_run calls
  generalize run calls = m at sound ⊢
  induction hierarchy generalizing m with
  | nil => exact sound
  | cons entry rest ih => exact ih _ ((sameOutline_setLinks _ _ _).slotsSound sound)

/-- In the diamond, the common subclass lists its own feature once and last, and those of the class on
top in front of those of the classes in between. -/
theorem supertype_closure_shapes :
    (shapes.isAssignable ⟨1⟩ ⟨4⟩ ↔ (⟨1⟩ : ElementId) = ⟨4⟩ ∨ TransGen shapes.Inherits ⟨4⟩ ⟨1⟩) ∧
      (shapes.allFeatures ⟨4⟩).Nodup ∧ (⟨5⟩ : ElementId) ∈ shapes.allFeatures ⟨4⟩ ∧
      (∃ inherited, shapes.allFeatures ⟨4⟩ = inherited ++ [⟨7⟩]) ∧
      (shapes.allFeatures ⟨4⟩).Pairwise fun f g => ∀ sub sup, f ∈ shapes.ownFeatures sub →
        g ∈ shapes.ownFeatures sup → ¬ TransGen shapes.Inherits sub sup := by
  obtain ⟨known, top, middle, isClass, held, own⟩ : ⟨1⟩ ∈ shapes.ids ∧
      ⟨1⟩ ∈ shapes.superTypes ⟨2⟩ ∧ ⟨2⟩ ∈ shapes.superTypes ⟨4⟩ ∧ shapes.isClass ⟨1⟩ ∧
      ⟨5⟩ ∈ shapes.members .attributes ⟨1⟩ ∧ shapes.ownFeatures ⟨4⟩ = [⟨7⟩] := by decide +kernel
  obtain ⟨assignable, -, -, ancestors, features⟩ := supertype_closure shapes
  obtain ⟨once, listed, last, ordered⟩ := features (slotsSound_runInheriting _ _) ⟨4⟩
  have above : TransGen shapes.Inherits ⟨4⟩ ⟨1⟩ :=
    .tail (.single (mem_superTypes.mp middle)) (mem_superTypes.mp top)
  have ancestor : ⟨1⟩ ∈ shapes.ancestors ⟨4⟩ :=
    ((ancestors ⟨4⟩).2 ⟨1⟩).mpr ⟨known, by decide, above⟩
  rw [own] at last
  exact ⟨assignable ⟨1⟩ ⟨4⟩ known, once,
    (listed ⟨5⟩).mpr ⟨⟨1⟩, List.mem_append_left _ ancestor, isClass, .inl held⟩, last,
    ordered (acyclicAbove_shapes _)⟩

end Metamodel.Model
