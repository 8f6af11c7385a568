import Metamodel.Proofs.DeclarationText
import Metamodel.Proofs.InheritedFeatures
import Metamodel.Proofs.Mutators

/-!
The fields of a struct as a partition of the features of its class.

A feature is stored in the field that has its identifier, so the fields share the features of the
class and its ancestors out among them. The first feature of each identifier opens the field, and
fields stand in the order in which they were opened. The text of a struct lists its fields twice:
where it is declared, and where its values begin.

Results:
1. `LaidOut.declaredBy_perm`: the features of all fields together.
2. `sublist_of_fields`: the order of the fields.
3. `fields_partition`: both, and where the fields are listed.
-/

namespace Metamodel

namespace FieldLayout

/-- The field of a struct that is laid out like this. -/
def field (t : TypeSettings) (f : FieldLayout) : Generated.Field where
  name := f.ident
  type := f.type.render t
  initial := f.type.initial

end FieldLayout

namespace Scope

open Generated Identifier Model

variable {s : Scope} {cls feature : ElementId} {features : List ElementId}
  {fields fields' : List FieldLayout}

/-! ## The order of fields -/

/-- One more feature joins a field that is there, or opens one behind the others. -/
theorem sublist_of_addFeature (ordered : (fields.map FieldLayout.feature).Sublist features)
    (added : s.addFeature fields feature = .ok fields') :
    (fields'.map FieldLayout.feature).Sublist (features ++ [feature]) := by
  unfold Scope.addFeature at added
  simp only at added
  split at added
  · cases added
    rw [FieldLayout.map_share FieldLayout.feature fun _ _ => rfl]
    exact ordered.trans (List.sublist_append_left features [feature])
  · obtain ⟨f, own, added⟩ := bind_ok_iff.mp added
    cases added
    obtain ⟨rfl, -, -, -⟩ := layout_ok own
    rw [List.map_append, List.map_singleton]
    exact ordered.append (List.Sublist.refl _)

/-- Fields stand in the order of the features that they are laid out for. -/
theorem sublist_of_fields (done : s.fields cls = .ok fields) :
    (fields.map FieldLayout.feature).Sublist (s.model.allFeatures cls) := by
  have start : (([] : List FieldLayout).map FieldLayout.feature).Sublist [] := List.Sublist.refl []
  exact keeps_foldlM_addFeature
    (P := fun features fields => (fields.map FieldLayout.feature).Sublist features)
    sublist_of_addFeature start done

/-! ## The features of fields -/

namespace LaidOut

variable (laid : s.LaidOut features fields)

include laid

/-- A field is the only one that stores a feature. -/
theorem existsUnique_field (member : feature ∈ features) :
    ∃! f, f ∈ fields ∧ feature ∈ f.declaredBy := by
  obtain ⟨f, there, same⟩ := laid.covered feature member
  refine ⟨f, ⟨there, (laid.mem_declaredBy_iff there).mpr ⟨member, same.symm⟩⟩, ?_⟩
  rintro g ⟨there', stored⟩
  have same' := ((laid.mem_declaredBy_iff there').mp stored).2
  exact List.inj_on_of_nodup_map laid.distinct there' there (same'.symm.trans same.symm)

/-- Together the fields store each feature once. -/
theorem declaredBy_perm (distinct : features.Nodup) :
    (fields.flatMap FieldLayout.declaredBy).Perm features := by
  have once : (fields.flatMap FieldLayout.declaredBy).Nodup := by
    refine List.nodup_flatMap.mpr ⟨fun f member => ?_, ?_⟩
    · rw [laid.stored f member]
      exact distinct.filter _
    · refine (List.pairwise_map.mp laid.distinct).imp_of_mem fun {f g} memberF memberG ne => ?_
      intro x storedF storedG
      have sameF := ((laid.mem_declaredBy_iff memberF).mp storedF).2
      have sameG := ((laid.mem_declaredBy_iff memberG).mp storedG).2
      exact ne (sameF.symm.trans sameG)
  refine (List.perm_ext_iff_of_nodup once distinct).mpr fun x => ?_
  rw [List.mem_flatMap]
  constructor
  · rintro ⟨f, member, stored⟩
    exact ((laid.mem_declaredBy_iff member).mp stored).1
  · intro member
    obtain ⟨f, ⟨there, stored⟩, -⟩ := laid.existsUnique_field member
    exact ⟨f, there, stored⟩

end LaidOut

theorem fields_of_structItem {struct : Struct} (done : s.structItem cls = .ok struct)
    (laid : s.fields cls = .ok fields) :
    struct.fields = fields.map (FieldLayout.field s.settings.types) := by
  obtain ⟨fields', laid', rfl⟩ := structItem_ok done
  cases laid.symm.trans laid'
  rfl

/-- The fields of a struct share out the features of its class and its ancestors, cyclic hierarchies
included. Fields have different identifiers, and each stores the features that have its identifier,
in their order. It is laid out for the first of them, and fields stand in the order of the features
that they are laid out for. The declaration of the struct and the values that its fields begin with
both list every field once, in this order. -/
theorem fields_partition (s : Scope) {cls : ElementId} (sound : s.model.SlotsSound)
    (linked : ∀ feature ∈ s.model.allFeatures cls, s.model.Linked feature) :
    ∃ fields struct rest, s.fields cls = .ok fields ∧ s.structItem cls = .ok struct ∧
      (fields.map FieldLayout.ident).Nodup ∧
      (fields.flatMap FieldLayout.declaredBy).Perm (s.model.allFeatures cls) ∧
      (∀ x ∈ s.model.allFeatures cls, ∃! f, f ∈ fields ∧ x ∈ f.declaredBy) ∧
      (∀ f ∈ fields, f.declaredBy = (s.model.allFeatures cls).filter fun x =>
        escapeKeyword (snakeCase (s.model.label x)) s.settings.naming.keywordEscape = f.ident) ∧
      (∀ f ∈ fields, f.declaredBy.head? = some f.feature) ∧
      (fields.map FieldLayout.feature).Sublist (s.model.allFeatures cls) ∧
      (s.model.allFeatures cls).Nodup ∧
      struct.text =
        blockOrBraces 0 ("pub struct " ++ struct.name)
          (fields.map fun f => line 1 (f.ident ++ ": " ++ f.type.render s.settings.types ++ ",")) ++
        "\n" ++
        block 0 ("impl Default for " ++ struct.name)
          [block 1 "fn default() -> Self"
            [blockOrBraces 2 "Self"
              (fields.map fun f => line 3 (f.ident ++ ": " ++ f.type.initial ++ ","))]] ++
        rest := by
  obtain ⟨struct, done⟩ := succeeds_structItem_of_features linked
  obtain ⟨fields, known, -⟩ := traits_of_structItem done
  have laid := laidOut_fields known
  have distinct := sound.nodup_allFeatures cls
  obtain ⟨rest, text⟩ : ∃ rest, struct.text =
      struct.declarationText ++ "\n" ++ struct.defaultText ++ rest := by
    refine ⟨"\n" ++ struct.functionsText ++
      String.join (struct.traits.map fun t => "\n" ++ struct.traitText t), ?_⟩
    rw [struct.text_eq, Struct.ownText]
    simp only [String.append_assoc]
  refine ⟨fields, struct, rest, known, done, laid.distinct, laid.declaredBy_perm distinct,
    fun x => laid.existsUnique_field, laid.stored, fun f _ => rfl, sublist_of_fields known, distinct,
    ?_⟩
  rw [text, Struct.declarationText, Struct.defaultText, fields_of_structItem done known,
    List.map_map, List.map_map]
  rfl

/-- The subclass that declares the size again has one field, which stores both sizes. -/
theorem fields_partition_stocked :
    ∃ fields struct, shopScope.fields ⟨6⟩ = .ok fields ∧ shopScope.structItem ⟨6⟩ = .ok struct ∧
      fields.map FieldLayout.ident = ["size"] ∧
      fields.map FieldLayout.declaredBy = [[⟨3⟩, ⟨7⟩]] ∧
      (fields.flatMap FieldLayout.declaredBy).Perm [⟨3⟩, ⟨7⟩] ∧
      ∃! f, f ∈ fields ∧ ⟨7⟩ ∈ f.declaredBy := by
  have linked : ∀ feature ∈ shopScope.model.allFeatures ⟨6⟩, shopScope.model.Linked feature :=
    fun _ _ x _ => resolved_stocked x
  obtain ⟨fields, struct, -, known, written, -, perm, unique, -⟩ :=
    fields_partition shopScope loaded_stocked.wellFormed.toSlotsSound linked
  have all : shopScope.model.allFeatures ⟨6⟩ = [⟨3⟩, ⟨7⟩] := allFeatures_stocked
  have listed : (([⟨3⟩, ⟨7⟩] : List ElementId).foldlM shopScope.addFeature []).toOption.map
      (fun fields => (fields.map FieldLayout.ident, fields.map FieldLayout.declaredBy)) =
      some (["size"], [[⟨3⟩, ⟨7⟩]]) := by decide +kernel
  have computed := known
  rw [Scope.fields, all] at computed
  rw [computed] at listed
  obtain ⟨idents, declared⟩ := Prod.ext_iff.mp (Option.some.inj listed)
  rw [all] at perm unique
  exact ⟨fields, struct, known, written, idents, declared, perm, unique ⟨7⟩ (by decide)⟩

end Scope

end Metamodel
