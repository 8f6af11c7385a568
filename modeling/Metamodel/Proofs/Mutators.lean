import Metamodel.Proofs.DeclaredNames
import Metamodel.Proofs.Getters
import Metamodel.Proofs.Plural
import Metamodel.Proofs.TraitClosure

/-!
The functions of a struct.

Besides the function that makes it, a struct has functions that set, unset and add to its fields,
named after the fields in snake case. Fields have different identifiers, so these names are
different too, and so are the functions that set and unset. What adds to a field is named after the
singular, and a name and its plural have the same one.

Results:
1. `LaidOut.nodup_stems`: fields have different names in snake case.
2. `functionNames_perm`: the functions of a struct, by name.
3. `structItem_functionNames`: when their names are different.
4. `functionNames_entries`: a class with a feature in the singular and one in the plural.
-/

namespace Metamodel

/-! ## Functions of a struct -/

namespace Generated

/-- The functions of a struct itself, by name: the one that makes it, and those that change it. -/
def Struct.functionNames (struct : Struct) : List String :=
  "new" :: struct.mutators.map Mutator.name

end Generated

/-- Texts with different first letters. -/
theorem append_ne_append {a b x y : String} {c d : Char} (headA : a.toList.head? = some c)
    (headB : b.toList.head? = some d) (ne : c ≠ d) : a ++ x ≠ b ++ y := by
  intro same
  have heads := congrArg (fun text => text.toList.head?) same
  simp only [String.toList_append, List.head?_append, headA, headB, Option.some_or,
    Option.some.injEq] at heads
  exact ne heads

namespace Scope

open Generated Identifier

variable {s : Scope} {cls : ElementId} {features : List ElementId} {fields : List FieldLayout}

namespace LaidOut

theorem stem_eq (laid : s.LaidOut features fields) {f : FieldLayout} (member : f ∈ fields) :
    f.stem = snakeCase (s.model.label f.feature) := by
  have own := laid.layout f member
  unfold Scope.layout at own
  obtain ⟨type, -, own⟩ := bind_ok_iff.mp own
  exact (congrArg FieldLayout.stem (Except.ok.inj own)).symm

/-- Fields with different identifiers have different names in snake case. -/
theorem nodup_stems (laid : s.LaidOut features fields) :
    (fields.map FieldLayout.stem).Nodup := by
  refine List.Nodup.of_map (escapeKeyword · s.settings.naming.keywordEscape) ?_
  have idents : (fields.map FieldLayout.stem).map
      (escapeKeyword · s.settings.naming.keywordEscape) = fields.map FieldLayout.ident := by
    rw [List.map_map]
    refine List.map_congr_left fun f member => ?_
    rw [Function.comp_apply, laid.stem_eq member, (laid.fieldIdent_feature member).1]
    rfl
  rw [idents]
  exact laid.distinct

end LaidOut

/-- Whether the field can be set. -/
def isSet (s : Scope) (f : FieldLayout) : Bool :=
  (s.model.feature? f.feature).any (·.changeable)

/-- Whether the field can be put back to the value that it begins with. -/
def isUnset (s : Scope) (f : FieldLayout) : Bool :=
  (s.model.feature? f.feature).any fun feature => feature.changeable && feature.unsettable

/-- Whether values can be added to the field one by one. -/
def isAdded (s : Scope) (f : FieldLayout) : Bool := s.isSet f && f.type.designation.isMany

theorem names_of_adder? (s : Scope) (f : FieldLayout) :
    (s.adder? f).toList.map Mutator.name =
      if f.type.designation.isMany then ["add_" ++ singular f.stem] else [] := by
  unfold adder?
  cases f.type.designation <;> rfl

/-- The methods that change a field, by name. -/
theorem names_of_mutators (s : Scope) (f : FieldLayout) :
    (s.mutators f).map Mutator.name =
      (if s.isSet f then ["set_" ++ f.stem] else []) ++
        ((if s.isUnset f then ["unset_" ++ f.stem] else []) ++
          if s.isAdded f then ["add_" ++ singular f.stem] else []) := by
  unfold mutators isAdded isSet isUnset
  cases s.model.feature? f.feature with
  | none => rfl
  | some feature =>
    cases changeable : feature.changeable <;> cases unsettable : feature.unsettable <;>
      simp [changeable, unsettable, names_of_adder?, setter, unsetter]

theorem functionNames_eq {struct : Struct} (done : s.structItem cls = .ok struct)
    (laid : s.fields cls = .ok fields) :
    struct.functionNames = "new" :: fields.flatMap fun f => (s.mutators f).map Mutator.name := by
  obtain ⟨fields', laid', rfl⟩ := structItem_ok done
  cases laid.symm.trans laid'
  show "new" :: (fields.flatMap s.mutators).map Mutator.name = _
  rw [List.map_flatMap]

/-- The functions of a struct: the one that makes it, and what sets, unsets and adds to its fields. -/
theorem functionNames_perm {struct : Struct} (done : s.structItem cls = .ok struct)
    (laid : s.fields cls = .ok fields) :
    struct.functionNames.Perm ("new" ::
      (((fields.filter s.isSet).map fun f => "set_" ++ f.stem) ++
        (((fields.filter s.isUnset).map fun f => "unset_" ++ f.stem) ++
          (fields.filter s.isAdded).map fun f => "add_" ++ singular f.stem))) := by
  rw [functionNames_eq done laid]
  refine List.Perm.cons "new" ?_
  simp only [names_of_mutators, ← flatMap_if_singleton]
  refine (List.flatMap_append_perm fields _ _).symm.trans (List.Perm.append_left _ ?_)
  exact (List.flatMap_append_perm fields _ _).symm

theorem LaidOut.nodup_prefixed (laid : s.LaidOut features fields) (start : String)
    (p : FieldLayout → Bool) : ((fields.filter p).map fun f => start ++ f.stem).Nodup := by
  have stems := laid.nodup_stems.sublist ((List.filter_sublist (p := p)).map FieldLayout.stem)
  have prefixed := stems.map (f := (start ++ ·)) fun _ _ same => String.append_right_inj _ |>.mp same
  rwa [List.map_map] at prefixed

/-- Adders have different names exactly if no two of their fields share a singular. -/
theorem LaidOut.nodup_adders_iff (laid : s.LaidOut features fields) :
    ((fields.filter s.isAdded).map fun f => "add_" ++ singular f.stem).Nodup ↔
      (fields.filter s.isAdded).Pairwise fun f g => ¬ SharesSingular f.stem g.stem := by
  have distinct : (fields.filter s.isAdded).Pairwise fun f g => f.stem ≠ g.stem :=
    List.pairwise_map.mp
      (laid.nodup_stems.sublist ((List.filter_sublist (p := s.isAdded)).map FieldLayout.stem))
  rw [List.Nodup, List.pairwise_map]
  constructor
  · intro adders
    exact adders.imp fun ne shared =>
      ne (congrArg ("add_" ++ ·) (singular_eq_iff.mpr (.inr shared)))
  · intro apart
    refine (distinct.and apart).imp fun {f g} both same => ?_
    rcases singular_eq_iff.mp (String.append_right_inj _ |>.mp same) with equal | shared
    · exact both.1 equal
    · exact both.2 shared

/-- When the features of a class and its ancestors are linked, its struct is written. It has one
function that makes it, one that sets each field that can be changed, one that unsets those that can
be, and one that adds to those with many values. The functions have different names exactly if no two
of the fields with many values share a singular. -/
theorem structItem_functionNames (s : Scope) {cls : ElementId}
    (linked : ∀ feature ∈ s.model.allFeatures cls, s.model.Linked feature) :
    ∃ struct fields, s.structItem cls = .ok struct ∧ s.fields cls = .ok fields ∧
      s.LaidOut (s.model.allFeatures cls) fields ∧
      struct.functionNames.Perm ("new" ::
        (((fields.filter s.isSet).map fun f => "set_" ++ f.stem) ++
          (((fields.filter s.isUnset).map fun f => "unset_" ++ f.stem) ++
            (fields.filter s.isAdded).map fun f => "add_" ++ singular f.stem))) ∧
      (struct.functionNames.Nodup ↔
        (fields.filter s.isAdded).Pairwise fun f g => ¬ SharesSingular f.stem g.stem) := by
  obtain ⟨struct, done⟩ := succeeds_structItem_of_features linked
  obtain ⟨fields, known, -⟩ := traits_of_structItem done
  have laid := laidOut_fields known
  have names := functionNames_perm done known
  refine ⟨struct, fields, done, known, laid, names, ?_⟩
  rw [names.nodup_iff, ← laid.nodup_adders_iff, List.nodup_cons, List.nodup_append,
    List.nodup_append]
  simp only [List.mem_append, List.mem_map]
  constructor
  · rintro ⟨-, -, ⟨-, adders, -⟩, -⟩
    exact adders
  · intro adders
    refine ⟨?made, laid.nodup_prefixed "set_" _, ⟨laid.nodup_prefixed "unset_" _, adders, ?added⟩,
      ?changed⟩
    case made =>
      rintro (⟨f, -, same⟩ | ⟨f, -, same⟩ | ⟨f, -, same⟩)
      all_goals exact append_ne_append (a := "n") (x := "ew") rfl rfl (by decide) same.symm
    case added =>
      rintro _ ⟨f, -, rfl⟩ _ ⟨g, -, rfl⟩
      exact append_ne_append rfl rfl (by decide)
    case changed =>
      rintro _ ⟨f, -, rfl⟩ _ (⟨g, -, rfl⟩ | ⟨g, -, rfl⟩)
      all_goals exact append_ne_append rfl rfl (by decide)

end Scope

/-! ## Two adders of one name -/

namespace Model

/-- A document with a class whose features are called by a name and by its plural, and with a class in
an inner package that has a plural and another name. -/
def catalogDocument : List Event :=
  [.opening "EPackage" (.ofList [("name", "catalog")]),
    .opening "eDataTypes" (.ofList [("name", "EString")]), .closing,
    .opening "eClasses" (.ofList [("name", "Index")]),
    .opening "eAttributes"
      (.ofList [("name", "entry"), ("eType", "#//EString"), ("upperBound", "-1")]), .closing,
    .opening "eAttributes"
      (.ofList [("name", "entries"), ("eType", "#//EString"), ("upperBound", "-1")]), .closing,
    .closing,
    .opening "eSubpackages" (.ofList [("name", "shelves")]),
    .opening "eDataTypes" (.ofList [("name", "EString")]), .closing,
    .opening "eClasses" (.ofList [("name", "Shelf")]),
    .opening "eAttributes"
      (.ofList [("name", "tags"), ("eType", "#//EString"), ("upperBound", "-1")]), .closing,
    .opening "eAttributes"
      (.ofList [("name", "place"), ("eType", "#//EString"), ("unsettable", "true")]), .closing,
    .closing, .closing, .closing]

/-- The model with the elements of `catalogDocument`. -/
def cataloguing : Model :=
  (({} : Model).build "xsi:type" catalogDocument none).toOption.elim {} Prod.fst

/-- The model with the elements of `catalogDocument`, resolved. -/
def catalogued : Model := (cataloguing.resolve ⟨0⟩ []).toOption.elim {} Prod.fst

theorem loaded_catalogued : catalogued.Loaded := by
  have built : ({} : Model).build "xsi:type" catalogDocument none = .ok (cataloguing, ⟨0⟩) := rfl
  exact elim_toOption .empty fun _ _ done => .resolved (.document .empty built) done

end Model

namespace Scope

open Generated Identifier Model

/-- The outer package. -/
def catalogScope : Scope := ⟨catalogued, {}, some ⟨0⟩⟩

/-- The names of the functions that fields laid out for the shelf get, by kind. -/
def shelfNames (fields : List FieldLayout) : List String × List String × List String :=
  ((fields.filter catalogScope.isSet).map fun f => "set_" ++ f.stem,
    (fields.filter catalogScope.isUnset).map fun f => "unset_" ++ f.stem,
    (fields.filter catalogScope.isAdded).map fun f => "add_" ++ singular f.stem)

-- One evaluation for all that follows: the kernel builds and resolves the model only once.
theorem evaluated_catalogued :
    (∀ e ∈ catalogued.elements.toList, ∀ field ∈ LinkField.all, ∀ link ∈ e.body.links field,
      link.isResolved) ∧
    (catalogued.superTypes ⟨2⟩ = [] ∧ catalogued.ownFeatures ⟨2⟩ = [⟨3⟩, ⟨4⟩]) ∧
    (catalogued.superTypes ⟨7⟩ = [] ∧ catalogued.ownFeatures ⟨7⟩ = [⟨8⟩, ⟨9⟩]) ∧
    isConcrete catalogued ⟨2⟩ ∧
    (([⟨3⟩, ⟨4⟩] : List ElementId).foldlM catalogScope.addFeature []).toOption.map
      (fun fields => fields.flatMap fun f => (catalogScope.mutators f).map Mutator.name) =
      some ["set_entry", "add_entry", "set_entries", "add_entry"] ∧
    (([⟨8⟩, ⟨9⟩] : List ElementId).foldlM catalogScope.addFeature []).toOption.map shelfNames =
      some (["set_tags", "set_place"], ["unset_place"], ["add_tag"]) := by
  decide +kernel

theorem resolved_catalogued : ∀ id field, ∀ link ∈ catalogued.links field id, link.isResolved :=
  isResolved_of_elements evaluated_catalogued.1

theorem allFeatures_catalogued :
    catalogued.allFeatures ⟨2⟩ = [⟨3⟩, ⟨4⟩] ∧ catalogued.allFeatures ⟨7⟩ = [⟨8⟩, ⟨9⟩] := by
  obtain ⟨-, ⟨noneIndex, ownIndex⟩, ⟨noneShelf, ownShelf⟩, -⟩ := evaluated_catalogued
  rw [allFeatures_of_no_superTypes noneIndex, allFeatures_of_no_superTypes noneShelf]
  exact ⟨ownIndex, ownShelf⟩

/-- The struct of a class with one name in the plural has functions of different names. -/
theorem structItem_functionNames_shelf :
    ∃ struct, catalogScope.structItem ⟨7⟩ = .ok struct ∧
      struct.functionNames.Perm ["new", "set_tags", "set_place", "unset_place", "add_tag"] ∧
      struct.functionNames.Nodup := by
  have linked : ∀ feature ∈ catalogScope.model.allFeatures ⟨7⟩,
      catalogScope.model.Linked feature := fun _ _ x _ => resolved_catalogued x
  obtain ⟨struct, fields, written, known, -, names, different⟩ :=
    structItem_functionNames catalogScope linked
  have all : catalogScope.model.allFeatures ⟨7⟩ = [⟨8⟩, ⟨9⟩] := allFeatures_catalogued.2
  obtain ⟨-, -, -, -, -, listed⟩ := evaluated_catalogued
  rw [Scope.fields, all] at known
  rw [known] at listed
  obtain ⟨sets, unsets, adds⟩ := Prod.ext_iff.mp (Option.some.inj listed) |>.imp_right Prod.ext_iff.mp
  dsimp only [shelfNames] at sets unsets adds
  rw [sets, unsets, adds] at names
  obtain ⟨f, single, -⟩ := List.map_eq_singleton_iff.mp adds
  refine ⟨struct, written, names, different.mpr ?_⟩
  rw [single]
  exact List.pairwise_singleton _ f

/-- The struct of a class with a name and its plural has one adder for each of them, and both have the
same name. -/
theorem functionNames_entries :
    catalogued.Loaded ∧ (∀ id field, ∀ link ∈ catalogued.links field id, link.isResolved) ∧
      isConcrete catalogued ⟨2⟩ ∧ catalogScope.settings = {} ∧
      ∃ struct, catalogScope.structItem ⟨2⟩ = .ok struct ∧
        struct.functionNames = ["new", "set_entry", "add_entry", "set_entries", "add_entry"] ∧
        ¬ struct.functionNames.Nodup := by
  obtain ⟨-, -, -, concrete, listed, -⟩ := evaluated_catalogued
  obtain ⟨fields, laid, names⟩ := Option.map_eq_some_iff.mp listed
  have all : catalogScope.model.allFeatures ⟨2⟩ = [⟨3⟩, ⟨4⟩] := allFeatures_catalogued.1
  have known : catalogScope.fields ⟨2⟩ = .ok fields := by
    rw [Scope.fields, all]
    exact toOption_eq_some_iff.mp laid
  have linked : ∀ feature ∈ catalogScope.model.allFeatures ⟨2⟩,
      catalogScope.model.Linked feature := fun _ _ x _ => resolved_catalogued x
  obtain ⟨struct, written⟩ := succeeds_structItem_of_features linked
  have isNames := functionNames_eq written known
  rw [names] at isNames
  exact ⟨loaded_catalogued, resolved_catalogued, concrete, rfl, struct, written, isNames,
    isNames ▸ by decide⟩

end Scope
end Metamodel
