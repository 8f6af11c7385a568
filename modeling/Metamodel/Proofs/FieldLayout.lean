import Metamodel.Proofs.Generation

/-!
The fields of a struct.

Features are laid out one after the other. A feature whose identifier is new gets a field; any other
is stored in the field that has its identifier. So the fields are those of the first features of
each identifier, and each of them stores all features of its identifier, in their order.

Results:
1. `LaidOut.addFeature`: what one more feature does.
2. `laidOut_fields`: the fields of the struct of a class.
3. `LaidOut.mem_features_iff`, `LaidOut.nodup_features`: the features that fields are laid out for.
-/

namespace Metamodel

namespace FieldLayout

variable {ident : String} {feature : ElementId} {fields : List FieldLayout}

/-- One more feature in a field changes nothing but the features that share it. -/
theorem map_share {β : Type} (g : FieldLayout → β)
    (same : ∀ f shared, g { f with shared := shared } = g f) :
    (share ident feature fields).map g = fields.map g := by
  rw [share, List.map_map]
  refine List.map_congr_left fun f _ => ?_
  simp only [Function.comp_apply]
  split
  · exact same f _
  · rfl

theorem map_ident_share : (share ident feature fields).map FieldLayout.ident =
    fields.map FieldLayout.ident :=
  map_share FieldLayout.ident fun _ _ => rfl

theorem mem_share {f' : FieldLayout} (member : f' ∈ share ident feature fields) :
    ∃ f ∈ fields, (f.ident = ident ∧ f' = { f with shared := f.shared ++ [feature] }) ∨
      (f.ident ≠ ident ∧ f' = f) := by
  obtain ⟨f, before, shared⟩ := List.mem_map.mp member
  refine ⟨f, before, ?_⟩
  split at shared
  · next same => exact .inl ⟨same, shared.symm⟩
  · next other => exact .inr ⟨other, shared.symm⟩

end FieldLayout

namespace Scope

/-- The identifier of the field for a feature. -/
def fieldIdent (s : Scope) (feature : ElementId) : String :=
  s.settings.naming.identifier (s.model.label feature)

/-- The first of these features whose field has the identifier that the field of `feature` has. -/
def firstNamed (s : Scope) (features : List ElementId) (feature : ElementId) : ElementId :=
  (features.find? fun f => s.fieldIdent f = s.fieldIdent feature).getD feature

variable {s : Scope} {features : List ElementId} {fields fields' : List FieldLayout}
  {feature : ElementId}

theorem firstNamed_spec (member : feature ∈ features) :
    s.firstNamed features feature ∈ features ∧
      s.fieldIdent (s.firstNamed features feature) = s.fieldIdent feature := by
  unfold firstNamed
  cases found : features.find? fun f => s.fieldIdent f = s.fieldIdent feature with
  | none => exact absurd (List.find?_eq_none.mp found feature member) (by simp)
  | some first => exact ⟨List.mem_of_find?_eq_some found, by simpa using List.find?_some found⟩

theorem firstNamed_congr {other : ElementId} (member : feature ∈ features)
    (same : s.fieldIdent other = s.fieldIdent feature) :
    s.firstNamed features other = s.firstNamed features feature := by
  unfold firstNamed
  rw [same]
  cases found : features.find? fun f => s.fieldIdent f = s.fieldIdent feature with
  | none => exact absurd (List.find?_eq_none.mp found feature member) (by simp)
  | some first => rfl

/-! ## Laying out features -/

/-- What one more feature keeps is kept by any number of them. -/
theorem keeps_foldlM_addFeature {P : List ElementId → List FieldLayout → Prop}
    (keeps : ∀ {features fields feature fields'}, P features fields →
      s.addFeature fields feature = .ok fields' → P (features ++ [feature]) fields')
    {more : List ElementId} (start : P features fields)
    (done : more.foldlM s.addFeature fields = .ok fields') : P (features ++ more) fields' := by
  induction more generalizing features fields with
  | nil =>
    cases done
    rwa [List.append_nil]
  | cons feature more ih =>
    rw [List.foldlM_cons] at done
    obtain ⟨next, added, later⟩ := bind_ok_iff.mp done
    have whole := ih (keeps start added) later
    rwa [List.append_assoc] at whole

/-- The fields store these features, each in the field that has its identifier, and are laid out for
the first of them. -/
structure LaidOut (s : Scope) (features : List ElementId) (fields : List FieldLayout) : Prop where
  distinct : (fields.map FieldLayout.ident).Nodup
  stored : ∀ f ∈ fields, f.declaredBy = features.filter fun x => s.fieldIdent x = f.ident
  layout : ∀ f ∈ fields, s.layout f.feature = .ok { f with shared := [] }
  covered : ∀ x ∈ features, ∃ f ∈ fields, f.ident = s.fieldIdent x

theorem laidOut_nil (s : Scope) : s.LaidOut [] [] := ⟨List.nodup_nil, by simp, by simp, by simp⟩

theorem layout_ok {f : FieldLayout} (laid : s.layout feature = .ok f) :
    f.feature = feature ∧ f.shared = [] ∧ f.ident = s.fieldIdent feature ∧
      s.fieldType feature = .ok f.type := by
  unfold layout at laid
  obtain ⟨type, known, done⟩ := bind_ok_iff.mp laid
  cases done
  dsimp only
  exact ⟨rfl, rfl, rfl, known⟩

namespace LaidOut

variable (laid : s.LaidOut features fields)

include laid

/-- A feature joins the field that has its identifier. -/
theorem share (taken : ∃ f ∈ fields, f.ident = s.fieldIdent feature) :
    s.LaidOut (features ++ [feature])
      (FieldLayout.share (s.fieldIdent feature) feature fields) := by
  refine ⟨?distinct, fun f' member => ?stored, fun f' member => ?layout, fun x member => ?covered⟩
  case distinct =>
    rw [FieldLayout.map_ident_share]
    exact laid.distinct
  case stored =>
    obtain ⟨f, before, ⟨same, rfl⟩ | ⟨other, rfl⟩⟩ := FieldLayout.mem_share member
    · have stored := laid.stored f before
      rw [FieldLayout.declaredBy] at stored ⊢
      rw [← List.cons_append, stored, List.filter_append, List.filter_singleton,
        decide_eq_true same.symm]
      rfl
    · rw [laid.stored f' before, List.filter_append, List.filter_singleton,
        decide_eq_false (Ne.symm other), cond_false, List.append_nil]
  case layout =>
    obtain ⟨f, before, ⟨-, rfl⟩ | ⟨-, rfl⟩⟩ := FieldLayout.mem_share member
    · exact laid.layout f before
    · exact laid.layout f' before
  case covered =>
    have there : s.fieldIdent x ∈ fields.map FieldLayout.ident := by
      rcases List.mem_append.mp member with before | new
      · obtain ⟨f, before, same⟩ := laid.covered x before
        exact List.mem_map.mpr ⟨f, before, same⟩
      · obtain rfl := List.mem_singleton.mp new
        obtain ⟨f, before, same⟩ := taken
        exact List.mem_map.mpr ⟨f, before, same⟩
    rw [← FieldLayout.map_ident_share] at there
    exact List.mem_map.mp there

/-- A feature whose identifier is new gets a field of its own. -/
theorem append (free : ∀ f ∈ fields, f.ident ≠ s.fieldIdent feature) {f : FieldLayout}
    (own : s.layout feature = .ok f) : s.LaidOut (features ++ [feature]) (fields ++ [f]) := by
  obtain ⟨rfl, alone, isIdent, -⟩ := layout_ok own
  refine ⟨?distinct, fun f' member => ?stored, fun f' member => ?layout, fun x member => ?covered⟩
  case distinct =>
    rw [List.map_append, List.map_singleton]
    refine laid.distinct.append (List.nodup_singleton _) ?_
    rw [List.disjoint_singleton]
    intro taken
    obtain ⟨f', before, same⟩ := List.mem_map.mp taken
    exact free f' before (same.trans isIdent)
  case stored =>
    rcases List.mem_append.mp member with before | new
    · rw [laid.stored f' before, List.filter_append, List.filter_singleton,
        decide_eq_false (Ne.symm (free f' before))]
      simp
    · obtain rfl := List.mem_singleton.mp new
      -- No feature before has this identifier, or there would be a field for it.
      have none : features.filter (fun x => s.fieldIdent x = f'.ident) = [] := by
        refine List.filter_eq_nil_iff.mpr fun x earlier same => ?_
        obtain ⟨f, before, isIdent'⟩ := laid.covered x earlier
        exact free f before (isIdent'.trans ((of_decide_eq_true same).trans isIdent))
      rw [List.filter_append, none, List.filter_singleton, decide_eq_true isIdent.symm,
        FieldLayout.declaredBy, alone]
      rfl
  case layout =>
    rcases List.mem_append.mp member with before | new
    · exact laid.layout f' before
    · obtain rfl := List.mem_singleton.mp new
      rw [own, ← alone]
  case covered =>
    rcases List.mem_append.mp member with before | new
    · obtain ⟨f', before, same⟩ := laid.covered x before
      exact ⟨f', List.mem_append_left [f] before, same⟩
    · obtain rfl := List.mem_singleton.mp new
      exact ⟨f, List.mem_append_right fields (List.mem_singleton_self f), isIdent⟩

theorem addFeature (added : s.addFeature fields feature = .ok fields') :
    s.LaidOut (features ++ [feature]) fields' := by
  unfold Scope.addFeature at added
  simp only at added
  split at added
  · next taken =>
    cases added
    exact laid.share (by simpa [fieldIdent] using taken)
  · next free =>
    obtain ⟨f, own, done⟩ := bind_ok_iff.mp added
    cases done
    exact laid.append (by simpa [fieldIdent] using free) own

theorem foldlM {more : List ElementId} (done : more.foldlM s.addFeature fields = .ok fields') :
    s.LaidOut (features ++ more) fields' :=
  keeps_foldlM_addFeature (fun laid added => laid.addFeature added) laid done

/-! ## What has been laid out -/

theorem fieldIdent_feature {f : FieldLayout} (member : f ∈ fields) :
    f.ident = s.fieldIdent f.feature ∧ s.fieldType f.feature = .ok f.type := by
  obtain ⟨-, -, isIdent, type⟩ := layout_ok (laid.layout f member)
  exact ⟨isIdent, type⟩

/-- A field is laid out for the first feature that it stores. -/
theorem feature_eq {f : FieldLayout} (member : f ∈ fields) (same : s.fieldIdent feature = f.ident) :
    f.feature = s.firstNamed features feature := by
  have first := congrArg List.head? (laid.stored f member)
  rw [List.head?_filter] at first
  rw [firstNamed, same, ← first]
  rfl

theorem nodup_features : (fields.map FieldLayout.feature).Nodup := by
  have idents :
      (fields.map FieldLayout.feature).map s.fieldIdent = fields.map FieldLayout.ident := by
    rw [List.map_map]
    refine List.map_congr_left fun f member => ?_
    rw [Function.comp_apply, ← (laid.fieldIdent_feature member).1]
  refine List.Nodup.of_map s.fieldIdent ?_
  rw [idents]
  exact laid.distinct

theorem mem_declaredBy_iff {f : FieldLayout} (member : f ∈ fields) :
    feature ∈ f.declaredBy ↔ feature ∈ features ∧ s.fieldIdent feature = f.ident := by
  rw [laid.stored f member, List.mem_filter, decide_eq_true_iff]

/-- The fields that store one of some features are laid out for the first features with their
identifiers. -/
theorem mem_features_iff {own : List ElementId} (subset : own ⊆ features) {x : ElementId} :
    x ∈ (fields.filter fun f => f.declaredBy.any (own.contains ·)).map FieldLayout.feature ↔
      x ∈ own.map (s.firstNamed features) := by
  simp only [List.mem_map, List.mem_filter, List.any_eq_true, List.contains_iff_mem]
  constructor
  · rintro ⟨f, ⟨member, y, stored, isOwn⟩, rfl⟩
    exact ⟨y, isOwn, (laid.feature_eq member ((laid.mem_declaredBy_iff member).mp stored).2).symm⟩
  · rintro ⟨y, isOwn, rfl⟩
    obtain ⟨f, member, same⟩ := laid.covered y (subset isOwn)
    exact ⟨f, ⟨member, y, (laid.mem_declaredBy_iff member).mpr ⟨subset isOwn, same.symm⟩, isOwn⟩,
      laid.feature_eq member same.symm⟩

end LaidOut

/-- The fields of a struct store the features of the class and its ancestors. -/
theorem laidOut_fields {cls : ElementId} (done : s.fields cls = .ok fields) :
    s.LaidOut (s.model.allFeatures cls) fields :=
  (laidOut_nil s).foldlM done

end Scope

end Metamodel
