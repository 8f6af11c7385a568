import Mathlib.Data.List.Dedup
import Metamodel.Proofs.DeclarationText
import Metamodel.Proofs.FieldLayout
import Metamodel.Proofs.Plan
import Metamodel.Proofs.Supertypes

/-!
The getters of a trait and those of its implementation by a struct.

The trait of a class requires a getter for each feature that the class declares. A struct that
implements the trait reads one field for each identifier of these features, and the getter of a
field is that of the feature which the field is laid out for: the first one in the class of the
struct and its ancestors that has the identifier. Where that is another feature, its type may be
another one too, and the implementation does not have the getter that the trait requires.

Results:
1. `signature_getterBody`: the getter of a field is that of the feature it is laid out for.
2. `traitBody_getters`: the getters on both sides, and when they agree.
3. `traitBody_getters_redeclared`: a feature that is declared again with another type.
-/

namespace Metamodel

/-- What computations give one after the other. -/
theorem mapM_ok_iff {ε α β : Type} {f : α → Except ε β} {l : List α} {bs : List β} :
    l.mapM f = .ok bs ↔ l.map f = bs.map .ok := by
  induction l generalizing bs with
  | nil =>
    constructor
    · rintro ⟨⟩
      rfl
    · intro results
      obtain rfl := List.map_eq_nil_iff.mp results.symm
      rfl
  | cons a l ih =>
    rw [List.mapM_cons, List.map_cons, bind_ok_iff]
    constructor
    · rintro ⟨b, first, done⟩
      obtain ⟨rest, others, done⟩ := bind_ok_iff.mp done
      cases done
      rw [first, ih.mp others, List.map_cons]
    · intro results
      obtain ⟨b, rest, rfl, first, others⟩ := List.map_eq_cons_iff.mp results.symm
      exact ⟨b, first.symm, bind_ok_iff.mpr ⟨rest, ih.mpr others.symm, rfl⟩⟩

/-- What is computed from results is computed with them. -/
theorem mapM_map_ok {ε α β γ : Type} {f : α → Except ε β} {l : List α} {bs : List β} (g : β → γ)
    (done : l.mapM f = .ok bs) : (l.mapM fun a => g <$> f a) = .ok (bs.map g) := by
  have results := congrArg (List.map (g <$> ·)) (mapM_ok_iff.mp done)
  rw [List.map_map, List.map_map] at results
  rw [mapM_ok_iff, List.map_map]
  exact results

/-- What callers see of a getter: its name and its type. -/
def Generated.Getter.signature (g : Generated.Getter) : String × String := (g.name, g.returns)

/-- What callers see of a getter: its name and its type. -/
def Generated.GetterBody.signature (g : Generated.GetterBody) : String × String :=
  (g.name, g.returns)

namespace Model

variable {m : Model}

/-- A feature notes the class that declares it. -/
theorem SlotsSound.containingClass_of_mem (sound : m.SlotsSound) {cls feature : ElementId}
    (own : feature ∈ m.ownFeatures cls) :
    (m.feature? feature).bind (·.containingClass) = some cls := by
  have noted {slot : Slot} (isFeatures : slot = .attributes ∨ slot = .references)
      (held : feature ∈ m.members slot cls) :
      (m.feature? feature).bind (·.containingClass) = some cls := by
    obtain ⟨-, fits⟩ := sound.fits held
    cases found : m.get? feature with
    | none => simp [kind?, found] at fits
    | some e =>
      have owner := sound.noted held
      simp only [kind?, noted?, body?, found, Option.map_some, Option.any_some, Option.bind_some]
        at fits owner
      simp only [feature?, body?, found, Option.map_some, Option.bind_some]
      rcases isFeatures with rfl | rfl
      all_goals
        cases content : e.body <;> simp only [Element.kind, content, Body.kind] at fits owner <;>
          first
          | exact absurd fits (by decide)
          | exact owner rfl
  rcases List.mem_append.mp own with held | held
  · exact noted (.inl rfl) held
  · exact noted (.inr rfl) held

end Model

namespace Scope

open Generated

variable {s : Scope} {cls owner : ElementId} {fields : List FieldLayout}

/-! ## The getters of fields -/

/-- The name and the type of the getter that a trait requires for a feature. -/
def signature (s : Scope) (feature : ElementId) : Except Error (String × String) :=
  Getter.signature <$> s.getter feature

/-- The getter of a field is that of the feature that it is laid out for. -/
theorem signature_getterBody {f : FieldLayout} (type : s.fieldType f.feature = .ok f.type) :
    s.signature f.feature = .ok (s.getterBody f).signature := by
  unfold signature getter
  rw [type]
  rfl

theorem isDeclaredBy_eq (sound : s.model.SlotsSound)
    (laid : s.LaidOut (s.model.allFeatures cls) fields) {f : FieldLayout} (member : f ∈ fields) :
    s.isDeclaredBy owner f =
      f.declaredBy.any ((s.model.ownFeatures owner).contains ·) := by
  unfold isDeclaredBy
  rw [Bool.eq_iff_iff, List.any_eq_true, List.any_eq_true]
  refine exists_congr fun x => and_congr_right fun stored => ?_
  obtain ⟨c, -, own⟩ := List.mem_flatMap.mp ((laid.mem_declaredBy_iff member).mp stored).1
  have noted := sound.containingClass_of_mem own
  rw [decide_eq_true_iff, List.contains_iff_mem]
  constructor
  · intro same
    rw [noted, Option.some.injEq] at same
    exact same ▸ own
  · exact sound.containingClass_of_mem

/-- The getters that a struct has for the features of a class are those of the first features with
their identifiers. -/
theorem signatures_perm (sound : s.model.SlotsSound)
    (laid : s.LaidOut (s.model.allFeatures cls) fields)
    (subset : s.model.ownFeatures owner ⊆ s.model.allFeatures cls) :
    ((fields.filter (s.isDeclaredBy owner)).map fun f =>
        (.ok (s.getterBody f).signature : Except Error (String × String))).Perm
      ((((s.model.ownFeatures owner).map (s.firstNamed (s.model.allFeatures cls))).dedup).map
        s.signature) := by
  have same : (fields.filter (s.isDeclaredBy owner)).map (fun f =>
      (.ok (s.getterBody f).signature : Except Error (String × String))) =
      ((fields.filter (s.isDeclaredBy owner)).map FieldLayout.feature).map s.signature := by
    rw [List.map_map]
    refine List.map_congr_left fun f declared => ?_
    have type := (laid.fieldIdent_feature (List.mem_of_mem_filter declared)).2
    exact (signature_getterBody type).symm
  rw [same]
  refine List.Perm.map s.signature ?_
  rw [List.filter_congr fun f member => isDeclaredBy_eq sound laid member]
  refine (List.perm_ext_iff_of_nodup ?_ (List.nodup_dedup _)).mpr fun x => ?_
  · exact laid.nodup_features.sublist (List.filter_sublist.map FieldLayout.feature)
  · rw [List.mem_dedup]
    exact laid.mem_features_iff subset

/-! ## Traits and their implementations -/

/-- What a trait is made of. -/
theorem traitItem_ok {required : Trait} (done : s.traitItem owner = .ok required) :
    ∃ getters methods, (s.model.ownFeatures owner).mapM s.getter = .ok getters ∧
      s.methods owner (getters.map Getter.name) (s.model.members .operations owner) =
        .ok methods ∧
      required = ⟨s.model.label owner, s.summary? owner, s.supertraits owner, getters, methods⟩ := by
  unfold traitItem at done
  obtain ⟨getters, read, done⟩ := bind_ok_iff.mp done
  obtain ⟨methods, made, done⟩ := bind_ok_iff.mp done
  exact ⟨getters, methods, read, made, (Except.ok.inj done).symm⟩

/-- What a struct is made of. -/
theorem structItem_ok {struct : Struct} (done : s.structItem cls = .ok struct) :
    ∃ fields, s.fields cls = .ok fields ∧
      struct = {
        name := s.settings.naming.struct (s.model.label cls)
        fields := fields.map fun f =>
          { name := f.ident, type := f.type.render s.settings.types, initial := f.type.initial }
        mutators := fields.flatMap s.mutators
        traits := (s.model.ancestors cls ++ [cls]).filterMap (s.traitBody? fields) } := by
  unfold structItem at done
  obtain ⟨fields, laid, done⟩ := bind_ok_iff.mp done
  exact ⟨fields, laid, (Except.ok.inj done).symm⟩

theorem name_of_traitItem {required : Trait} (done : s.traitItem owner = .ok required) :
    required.name = s.model.label owner := by
  obtain ⟨getters, methods, -, -, rfl⟩ := traitItem_ok done
  rfl

theorem name_of_structItem {struct : Struct} (done : s.structItem cls = .ok struct) :
    struct.name = s.settings.naming.struct (s.model.label cls) := by
  obtain ⟨fields, -, rfl⟩ := structItem_ok done
  rfl

theorem getters_of_traitItem {required : Trait} (done : s.traitItem owner = .ok required) :
    (required.getters.map fun g => (.ok g.signature : Except Error (String × String))) =
      (s.model.ownFeatures owner).map s.signature := by
  obtain ⟨getters, methods, each, -, rfl⟩ := traitItem_ok done
  have known := mapM_ok_iff.mp (mapM_map_ok Getter.signature each)
  rw [List.map_map] at known
  exact known.symm

theorem traits_of_structItem {struct : Struct} (done : s.structItem cls = .ok struct) :
    ∃ fields, s.fields cls = .ok fields ∧
      struct.traits = (s.model.ancestors cls ++ [cls]).filterMap (s.traitBody? fields) := by
  obtain ⟨fields, laid, rfl⟩ := structItem_ok done
  exact ⟨fields, laid, rfl⟩

theorem traitBody?_eq (isClass : s.model.isClass owner) (outside : s.isStandard owner = false) :
    s.traitBody? fields owner =
      some ⟨s.path owner, (fields.filter (s.isDeclaredBy owner)).map s.getterBody⟩ := by
  have known : s.model.kind? owner = some .eClass := by simpa [Model.isClass] using isClass
  have designation : s.ofClassifier owner = .trait (s.path owner) := by
    simp [ofClassifier, known, outside]
  rw [traitBody?, designation]

theorem ownFeatures_subset (above : owner ∈ s.model.ancestors cls ++ [cls]) :
    s.model.ownFeatures owner ⊆ s.model.allFeatures cls :=
  fun _ own => List.mem_flatMap.mpr ⟨owner, above, own⟩

/-- What a list without its repetitions is mapped to, compared with another list of its length. -/
theorem perm_map_dedup_iff {α β : Type} [DecidableEq α] {l : List α} {l' : List β} {f : α → β}
    (length : l.length = l'.length) :
    (l.dedup.map f).Perm l' ↔ l.Nodup ∧ (l.map f).Perm l' := by
  constructor
  · intro perm
    have sameLength : l.dedup.length = l.length := by
      rw [length, ← perm.length_eq, List.length_map]
    have same : l.dedup = l := l.dedup_sublist.eq_of_length sameLength
    exact ⟨List.dedup_eq_self.mp same, same ▸ perm⟩
  · rintro ⟨distinct, perm⟩
    rwa [distinct.dedup]

theorem nodup_firstNamed_iff {features own : List ElementId} (subset : own ⊆ features) :
    (own.map (s.firstNamed features)).Nodup ↔ (own.map s.fieldIdent).Nodup := by
  have idents : (own.map (s.firstNamed features)).map s.fieldIdent = own.map s.fieldIdent := by
    rw [List.map_map]
    refine List.map_congr_left fun x member => ?_
    rw [Function.comp_apply, (firstNamed_spec (subset member)).2]
  rw [← idents]
  constructor
  · refine fun distinct => distinct.map_on fun x here y there same => ?_
    obtain ⟨a, member, rfl⟩ := List.mem_map.mp here
    obtain ⟨b, member', rfl⟩ := List.mem_map.mp there
    rw [(firstNamed_spec (subset member)).2, (firstNamed_spec (subset member')).2] at same
    exact firstNamed_congr (subset member') same
  · exact List.Nodup.of_map s.fieldIdent

/-- The trait of a class requires a getter for each of its features. A struct that implements it has
one getter for each identifier of these features: that of the first feature with the identifier, in
the class of the struct and its ancestors. The getters are the same on both sides exactly if the
features of the class have different identifiers and, taken together, the same names and types as
the first features with these identifiers. The text of the trait has a line with the name and the
type for each getter that it requires, and the text of the struct has a block for each trait with a
function for each getter that it has. -/
theorem traitBody_getters (sound : s.model.SlotsSound)
    (resolved : ∀ id field, ∀ link ∈ s.model.links field id, link.isResolved)
    (above : owner ∈ s.model.ancestors cls ++ [cls]) (isClass : s.model.isClass owner)
    (outside : s.isStandard owner = false) :
    ∃ required struct fields provided,
      s.traitItem owner = .ok required ∧ s.structItem cls = .ok struct ∧
      s.fields cls = .ok fields ∧ s.traitBody? fields owner = some provided ∧
      provided ∈ struct.traits ∧ provided.trait = s.path owner ∧
      required.text = summaryLine 0 required.summary ++
        block 0 ("pub trait " ++ s.model.label owner ++
            if required.supertraits = [] then ""
            else ": " ++ " + ".intercalate required.supertraits)
          (spaced ((required.getters.map fun g => summaryLine 1 g.summary ++
            line 1 ("fn " ++ g.name ++ "(&self) -> " ++ g.returns ++ ";")) ++
            required.methods.map Trait.methodText)) ∧
      struct.text = struct.ownText ++ String.join (struct.traits.map fun body =>
        "\n" ++ blockOrBraces 0 ("impl " ++ body.trait ++ " for " ++ struct.name)
          (spaced (body.getters.map fun g =>
            block 1 ("fn " ++ g.name ++ "(&self) -> " ++ g.returns) [line 2 g.expression]))) ∧
      (required.getters.map fun g => .ok g.signature) =
        (s.model.ownFeatures owner).map s.signature ∧
      (provided.getters.map fun g => .ok g.signature).Perm
        (((s.model.ownFeatures owner).map (s.firstNamed (s.model.allFeatures cls))).dedup.map
          s.signature) ∧
      ((provided.getters.map GetterBody.signature).Perm
          (required.getters.map Getter.signature) ↔
        ((s.model.ownFeatures owner).map s.fieldIdent).Nodup ∧
          ((s.model.ownFeatures owner).map fun f =>
            s.signature (s.firstNamed (s.model.allFeatures cls) f)).Perm
              ((s.model.ownFeatures owner).map s.signature)) := by
  have linked (id : ElementId) : s.model.Linked id := fun x _ => resolved x
  obtain ⟨required, isTrait⟩ := s.succeeds_traitItem (linked owner)
  obtain ⟨struct, isStruct⟩ := s.succeeds_structItem (linked cls) fun id _ => linked id
  obtain ⟨fields, laid, traits⟩ := traits_of_structItem isStruct
  have subset := ownFeatures_subset above
  have isBody : s.traitBody? fields owner = some _ := traitBody?_eq isClass outside
  have wanted := getters_of_traitItem isTrait
  have given := signatures_perm sound (laidOut_fields laid) subset
  refine ⟨required, struct, fields, _, isTrait, isStruct, laid, isBody, ?implemented, rfl, ?trait,
    ?struct, wanted, ?given, ?agree⟩
  case implemented =>
    rw [traits]
    exact List.mem_filterMap.mpr ⟨owner, above, isBody⟩
  case trait => rw [required.text_eq, name_of_traitItem isTrait, funext Trait.getterText_eq]
  case struct => simp only [struct.text_eq, Struct.traitText_eq]
  case given =>
    rw [List.map_map]
    exact given
  case agree =>
    have wrap : Function.Injective (Except.ok : String × String → Except Error (String × String)) :=
      fun _ _ => Except.ok.inj
    rw [← List.map_perm_map_iff wrap, List.map_map, List.map_map, List.map_map]
    change ((fields.filter (s.isDeclaredBy owner)).map fun f =>
        (.ok (s.getterBody f).signature : Except Error (String × String))).Perm
      (required.getters.map fun g => .ok g.signature) ↔ _
    rw [wanted, given.congr_left, ← nodup_firstNamed_iff subset, perm_map_dedup_iff (by simp),
      List.map_map]
    rfl

end Scope

/-! ## A feature that is declared again -/

namespace Model

/-- A document with a class that has a size, which is a number. -/
def stockDocument : List Event :=
  [.opening "EPackage" (.ofList [("name", "stock"), ("nsPrefix", "stock")]),
    .opening "eDataTypes" (.ofList [("name", "EInt")]), .closing,
    .opening "eClasses" (.ofList [("name", "Base")]),
    .opening "eAttributes" (.ofList [("name", "size"), ("eType", "#//EInt")]), .closing,
    .closing, .closing]

/-- A document with a subclass of that class which has a size too, but as a text. -/
def shopDocument : List Event :=
  [.opening "EPackage" (.ofList [("name", "shop"), ("nsPrefix", "shop")]),
    .opening "eDataTypes" (.ofList [("name", "EString")]), .closing,
    .opening "eClasses"
      (.ofList [("name", "Item"), ("eSuperTypes", "stock:EClass stock.ecore#//Base")]),
    .opening "eAttributes" (.ofList [("name", "size"), ("eType", "#//EString")]), .closing,
    .closing, .closing]

/-- The model with the elements of `stockDocument`. -/
def stocking : Model := (({} : Model).build "xsi:type" stockDocument none).toOption.elim {} Prod.fst

/-- The model with the elements of both documents. -/
def shopping : Model := (stocking.build "xsi:type" shopDocument none).toOption.elim {} Prod.fst

/-- The model with the elements of both documents, all links resolved. -/
def stocked : Model :=
  (do
    let (m, _) ← shopping.resolve ⟨0⟩ []
    m.resolve ⟨4⟩ [⟨0⟩]).toOption.elim {} Prod.fst

/-- What holds of the empty model and of the one that a run gives, holds of the model that is taken
where the run may fail. -/
theorem elim_toOption {ε β : Type} {P : Model → Prop} {result : Except ε (Model × β)}
    (empty : P {}) (given : ∀ m b, result = .ok (m, b) → P m) :
    P (result.toOption.elim {} Prod.fst) := by
  cases done : result with
  | error failure => exact empty
  | ok pair => exact given pair.1 pair.2 done

theorem loaded_stocked : stocked.Loaded := by
  have builtStock : ({} : Model).build "xsi:type" stockDocument none = .ok (stocking, ⟨0⟩) := rfl
  have builtShop : stocking.build "xsi:type" shopDocument none = .ok (shopping, ⟨4⟩) := rfl
  have loaded : shopping.Loaded := .document (.document .empty builtStock) builtShop
  refine elim_toOption .empty fun m count both => ?_
  obtain ⟨⟨m, count⟩, first, second⟩ := bind_ok_iff.mp both
  exact .resolved (.resolved loaded first) second

theorem isResolved_of_elements {m : Model}
    (all : ∀ e ∈ m.elements.toList, ∀ field ∈ LinkField.all, ∀ link ∈ e.body.links field,
      link.isResolved) (id : ElementId) (field : LinkField) :
    ∀ link ∈ m.links field id, link.isResolved := by
  intro link held
  cases found : m.get? id with
  | none => simp [links, body?, found] at held
  | some e =>
    rw [links_of_get? found] at held
    have there : e ∈ m.elements.toList :=
      Array.mem_toList_iff.mpr (Array.mem_of_getElem? found)
    exact all e there field (LinkField.mem_all field) link held

-- One evaluation for all that follows: the kernel builds and resolves the model only once.
theorem evaluated_stocked :
    (∀ e ∈ stocked.elements.toList, ∀ field ∈ LinkField.all, ∀ link ∈ e.body.links field,
      link.isResolved) ∧
    stocked.superTypes ⟨6⟩ = [⟨2⟩] ∧ stocked.superTypes ⟨2⟩ = [] ∧ ⟨2⟩ ∈ stocked.ids ∧
    stocked.ownFeatures ⟨2⟩ = [⟨3⟩] ∧ stocked.ownFeatures ⟨6⟩ = [⟨7⟩] := by
  decide +kernel

theorem resolved_stocked : ∀ id field, ∀ link ∈ stocked.links field id, link.isResolved :=
  isResolved_of_elements evaluated_stocked.1

theorem ancestors_stocked : stocked.ancestors ⟨6⟩ = [⟨2⟩] := by
  obtain ⟨-, one, none, known, -⟩ := evaluated_stocked
  exact ancestors_of_one_superType one none known (by decide)

theorem allFeatures_stocked : stocked.allFeatures ⟨6⟩ = [⟨3⟩, ⟨7⟩] := by
  obtain ⟨-, one, none, known, inherited, own⟩ := evaluated_stocked
  rw [allFeatures_of_one_superType one none known (by decide), inherited, own]
  rfl

end Model

namespace Scope

open Generated Model

/-- The package of the subclass, from which its struct and its trait are written. -/
def shopScope : Scope := ⟨stocked, {}, some ⟨4⟩⟩

/-- The struct of the subclass has the getter that the trait of the superclass requires. -/
theorem traitBody_getters_stocked : ∃ required struct fields provided,
    shopScope.traitItem ⟨2⟩ = .ok required ∧ shopScope.structItem ⟨6⟩ = .ok struct ∧
      shopScope.fields ⟨6⟩ = .ok fields ∧ shopScope.traitBody? fields ⟨2⟩ = some provided ∧
      provided ∈ struct.traits ∧
      (provided.getters.map GetterBody.signature).Perm
        (required.getters.map Getter.signature) := by
  have above : ⟨2⟩ ∈ shopScope.model.ancestors ⟨6⟩ ++ [⟨6⟩] := by
    rw [shopScope, ancestors_stocked]
    decide
  obtain ⟨isClass, outside, own, first⟩ : shopScope.model.isClass ⟨2⟩ ∧
      shopScope.isStandard ⟨2⟩ = false ∧ shopScope.model.ownFeatures ⟨2⟩ = [⟨3⟩] ∧
      shopScope.firstNamed [⟨3⟩, ⟨7⟩] ⟨3⟩ = ⟨3⟩ := by decide +kernel
  obtain ⟨required, struct, fields, provided, isTrait, isStruct, laid, isBody, there, -, -, -, -, -,
    agree⟩ :=
    traitBody_getters loaded_stocked.wellFormed.toSlotsSound resolved_stocked above isClass outside
  refine ⟨required, struct, fields, provided, isTrait, isStruct, laid, isBody, there,
    agree.mpr ?_⟩
  have all : shopScope.model.allFeatures ⟨6⟩ = [⟨3⟩, ⟨7⟩] := allFeatures_stocked
  rw [own, all]
  refine ⟨List.nodup_singleton _, ?_⟩
  rw [List.map_singleton, first, List.map_singleton]

/-- The trait of the subclass requires a getter that returns a text, and its struct has one that
returns a number: the field is that of the superclass. -/
theorem traitBody_getters_redeclared :
    stocked.Loaded ∧ (∀ id field, ∀ link ∈ stocked.links field id, link.isResolved) ∧
      isConcrete stocked ⟨6⟩ ∧ stocked.isClass ⟨6⟩ ∧ shopScope.isStandard ⟨6⟩ = false ∧
      ∃ required fields provided, shopScope.traitItem ⟨6⟩ = .ok required ∧
        shopScope.fields ⟨6⟩ = .ok fields ∧ shopScope.traitBody? fields ⟨6⟩ = some provided ∧
        required.getters.map Getter.signature = [("size", "Option<&String>")] ∧
        provided.getters.map GetterBody.signature = [("size", "i32")] := by
  obtain ⟨concrete, isClass, outside, wanted, given⟩ : isConcrete stocked ⟨6⟩ ∧
      stocked.isClass ⟨6⟩ ∧ shopScope.isStandard ⟨6⟩ = false ∧
      (shopScope.traitItem ⟨6⟩).toOption.map (·.getters.map Getter.signature) =
        some [("size", "Option<&String>")] ∧
      (([⟨3⟩, ⟨7⟩] : List ElementId).foldlM shopScope.addFeature []).toOption.bind
          (fun fields => (shopScope.traitBody? fields ⟨6⟩).map
            (·.getters.map GetterBody.signature)) =
        some [("size", "i32")] := by decide +kernel
  obtain ⟨required, isTrait, wanted⟩ := Option.map_eq_some_iff.mp wanted
  obtain ⟨fields, laid, given⟩ := Option.bind_eq_some_iff.mp given
  obtain ⟨provided, isBody, given⟩ := Option.map_eq_some_iff.mp given
  have isFields : shopScope.fields ⟨6⟩ = .ok fields := by
    rw [Scope.fields, shopScope, allFeatures_stocked]
    exact toOption_eq_some_iff.mp laid
  exact ⟨loaded_stocked, resolved_stocked, concrete, isClass, outside, required, fields, provided,
    toOption_eq_some_iff.mp isTrait, isFields, isBody, wanted, given⟩

end Scope

end Metamodel
