import Metamodel.Proofs.Naming
import Metamodel.Proofs.ReferenceReading
import Metamodel.Proofs.RootOrder

/-!
Which elements a path of names leads to.

In a loaded model every named element stands in a slot of its container, and the container finds it
there by its name if no other named member has it. There is one exception: an enumeration may have
type parameters, as other classifiers do, but it looks for names among its literals only.

Results:
1. `Loaded.namesHeld`: named elements stand in slots.
2. `mem_nameable_iff`: the members that an element finds by name.
3. `Loaded.fragment_addresses`: what a path down the containers is followed to, and what a fragment
   that writes it is resolved to. `resolve_enum_parameter` is a type parameter that cannot be
   referred to.
-/

namespace Metamodel

/-! ## Slots of named members -/

/-- The slots in which an element looks for members by name, in the order of preference. -/
def Kind.nameSlots : Kind → List Slot
  | .ePackage => [.classes, .dataTypes, .subpackages]
  | .eClass => [.attributes, .references, .operations, .typeParameters]
  | .eEnum => [.literals]
  | .eOperation => [.parameters, .typeParameters]
  | .eDataType => [.typeParameters]
  | _ => []

theorem Kind.mem_all (k : Kind) : k ∈ all := by
  cases k <;> decide

/-- Named elements are looked for in the slots that hold them, but for type parameters of
enumerations. -/
theorem Slot.mem_nameSlots_iff {slot : Slot} {kind k : Kind} (on : slot.isOn kind)
    (fit : k.isA slot.memberClass) :
    slot ∈ kind.nameSlots ↔ k.isNamed ∧ ¬ (k = .eTypeParameter ∧ kind = .eEnum) := by
  have all : ∀ slot ∈ Slot.all, ∀ kind ∈ Kind.all, ∀ k ∈ Kind.all, slot.isOn kind →
      k.isA slot.memberClass →
      (slot ∈ kind.nameSlots ↔ k.isNamed ∧ ¬ (k = .eTypeParameter ∧ kind = .eEnum)) := by
    decide +kernel
  exact all slot slot.mem_all kind kind.mem_all k k.mem_all on fit

/-- A slot for one element holds a generic type, which has no name. -/
theorem Slot.not_isNamed_of_isSingle {slot : Slot} {k : Kind} (single : slot.isSingle)
    (fit : k.isA slot.memberClass) : k.isNamed = false := by
  have all : ∀ slot ∈ Slot.all, ∀ k ∈ Kind.all, slot.isSingle → k.isA slot.memberClass →
      k.isNamed = false := by
    decide +kernel
  exact all slot slot.mem_all k k.mem_all single fit

namespace Model

variable {m : Model}

theorem nameable_eq (m : Model) (id : ElementId) :
    m.nameable id = ((m.kind? id).elim [] Kind.nameSlots).flatMap (m.members · id) := by
  unfold nameable namedMembers isPackage
  cases m.kind? id with
  | none => rfl
  | some k => cases k <;> simp [Kind.nameSlots]

/-! ## Named elements stand in slots -/

/-- Every named element stands in a slot of its container. -/
def NamesHeld (m : Model) : Prop :=
  ∀ c p, m.parent? c = some p → (m.kind? c).any Kind.isNamed → c ∈ m.allMembers p

theorem namesHeld_empty : NamesHeld {} := by
  intro c p above
  simp [parent?, get?] at above

theorem SameOutline.namesHeld {n : Model} (same : SameOutline m n) (held : m.NamesHeld) :
    n.NamesHeld := by
  intro c p above named
  rw [same.parent?] at above
  rw [same.kind?] at named
  obtain ⟨slot, stands⟩ := mem_allMembers.mp (held c p above named)
  exact mem_allMembers.mpr ⟨slot, by rwa [same.members]⟩

theorem namesHeld_append {e : Element} (held : m.NamesHeld) (detached : e.Detached) :
    (m.append e).NamesHeld := by
  intro c p above named
  rw [parent?_append detached] at above
  rw [kind?, get?_append_of_parent? above] at named
  obtain ⟨slot, stands⟩ := mem_allMembers.mp (held c p above named)
  exact mem_allMembers.mpr ⟨slot, by rwa [members_append detached]⟩

/-- An addition displaces generic types only. -/
theorem namesHeld_add {n : Model} {slot : Slot} {owner member : ElementId} (sound : m.SlotsSound)
    (held : m.NamesHeld) (added : m.add slot owner member = .ok n) : n.NamesHeld := by
  obtain ⟨container, content, found, there, on, -, ne, -, newName, rfl⟩ := add_ok_iff.mp added
  intro c p above named
  rw [kind?_attach found there ne] at named
  rw [parent?_attach found there ne] at above
  refine mem_allMembers.mpr ?_
  simp only [mem_members_attach found there ne on newName]
  split at above
  · next isMember =>
    cases above
    exact ⟨slot, .inl ⟨rfl, rfl, isMember⟩⟩
  · obtain ⟨other, stands⟩ := mem_allMembers.mp (held c p above named)
    refine ⟨other, .inr ⟨stands, ?_⟩⟩
    rintro ⟨-, rfl, single⟩
    obtain ⟨-, fit⟩ := sound.fits stands
    cases known : m.kind? c with
    | none => simp [known] at named
    | some k =>
      rw [known] at named fit
      exact absurd named (by simp [Slot.not_isNamed_of_isSingle single fit])

theorem Extended.namesHeld {n : Model} (extended : m.Extended n) (wf : m.WellFormed)
    (held : m.NamesHeld) : n.NamesHeld := by
  cases extended with
  | same outline => exact outline.namesHeld held
  | created detached => exact namesHeld_append held detached
  | contained detached added =>
    exact namesHeld_add (slotsSound_append wf.toSlotsSound detached)
      (namesHeld_append held detached) added

end Model

/-! ## The standard package -/

theorem Element.members_rename (f : ElementId → ElementId) (slot : Slot) (e : Element) :
    (e.rename f).members slot = (e.members slot).map f := by
  obtain ⟨id, name, parent, annotations, body⟩ := e
  by_cases own : slot = .annotations
  · simp [Element.members, Element.rename, own]
  · simp only [Element.members, Element.rename, own, if_false]
    cases slot <;> cases body <;> simp [Body.rename, Body.members, Body.renameTyped,
      Body.renameFeature, Body.renameClassifier, Body.renameDataType, OrderedMap.values,
      OrderedMap.entries_map, Option.toList_map, Function.comp_def]

namespace Model

variable {m : Model}

theorem members_followedBy (m c : Model) (slot : Slot) (id : ElementId) :
    (m.followedBy c).members slot (id.shift m.size) =
      (c.members slot id).map (.shift m.size) := by
  unfold members
  rw [get?_followedBy_shift]
  cases c.get? id with
  | none => rfl
  | some e => exact e.members_rename _ slot

theorem namesHeld_followedBy {c : Model} (closed : m.Closed) (held : m.NamesHeld)
    (heldBehind : c.NamesHeld) : (m.followedBy c).NamesHeld := by
  intro x p above named
  rcases m.lt_size_or_exists_shift x with old | ⟨x, rfl⟩
  · rw [parent?, get?_followedBy_of_lt m c old] at above
    rw [kind?, get?_followedBy_of_lt m c old] at named
    obtain ⟨e, found⟩ := closed.owner_exists above
    obtain ⟨slot, stands⟩ := mem_allMembers.mp (held x p above named)
    refine mem_allMembers.mpr ⟨slot, ?_⟩
    rwa [members, get?_followedBy_of_lt m c (lt_size_of_get? found)]
  · rw [parent?_followedBy] at above
    rw [kind?_followedBy] at named
    obtain ⟨q, aboveBehind, rfl⟩ := Option.map_eq_some_iff.mp above
    obtain ⟨slot, stands⟩ := mem_allMembers.mp (heldBehind x q aboveBehind named)
    refine mem_allMembers.mpr ⟨slot, ?_⟩
    rw [members_followedBy]
    exact List.mem_map_of_mem stands

theorem namesHeld_of_forall (all : ∀ i : Fin m.elements.size, ∀ p ∈ m.elements[i].parent,
    (⟨i⟩ : ElementId) ∈ m.allMembers p) : m.NamesHeld := by
  intro c p above _
  obtain ⟨e, found⟩ := exists_of_parent? above
  obtain ⟨inside, rfl⟩ := Array.getElem?_eq_some_iff.mp found
  rw [parent?_of_get? found] at above
  exact all ⟨c.index, inside⟩ p above

theorem namesHeld_addStandardPackage (closed : m.Closed) (held : m.NamesHeld) :
    m.addStandardPackage.NamesHeld := by
  have alone : ({} : Model).addStandardPackage.NamesHeld := namesHeld_of_forall (by decide +kernel)
  rw [addStandardPackage_eq]
  exact namesHeld_followedBy closed held alone

theorem Loaded.namesHeld (loaded : m.Loaded) : m.NamesHeld := by
  induction loaded with
  | empty => exact namesHeld_empty
  | document before built ih =>
    obtain ⟨-, c, accepted, -, -, rfl⟩ := build_ok_iff.mp built
    exact (Construction.keeps_foldlM (P := fun n => n.WellFormed ∧ n.NamesHeld)
      (fun extended held => ⟨extended.wellFormed held.1, extended.namesHeld held.1 held.2⟩)
      ⟨before.wellFormed, ih⟩ accepted).2
  | standard before ih => exact namesHeld_addStandardPackage before.wellFormed.toClosed ih
  | resolved _ resolved ih => exact (sameOutline_resolve resolved).namesHeld ih

/-! ## Members by name -/

/-- The type parameters of enumerations. -/
def isEnumParameter (m : Model) (id : ElementId) : Bool :=
  m.kind? id = some .eTypeParameter && (m.parent? id).bind m.kind? = some .eEnum

theorem mem_nameable_iff (sound : m.SlotsSound) (held : m.NamesHeld) {p c : ElementId} :
    c ∈ m.nameable p ↔
      m.parent? c = some p ∧ (m.kind? c).any Kind.isNamed ∧ m.isEnumParameter c = false := by
  -- What a slot of `p` holds is looked for there exactly if it is named and no exception.
  have inSlot {slot : Slot} (stands : c ∈ m.members slot p) :
      slot ∈ (m.kind? p).elim [] Kind.nameSlots ↔
        (m.kind? c).any Kind.isNamed ∧ m.isEnumParameter c = false := by
    obtain ⟨on, fit⟩ := sound.fits stands
    have above := sound.parent stands
    cases knownOwner : m.kind? p with
    | none => simp [knownOwner] at on
    | some kind =>
      cases known : m.kind? c with
      | none => simp [known] at fit
      | some k =>
        rw [knownOwner, Option.any_some] at on
        rw [known, Option.any_some] at fit
        simpa [isEnumParameter, above, known, knownOwner] using Slot.mem_nameSlots_iff on fit
  rw [nameable_eq, List.mem_flatMap]
  constructor
  · rintro ⟨slot, looked, stands⟩
    exact ⟨sound.parent stands, (inSlot stands).mp looked⟩
  · rintro ⟨above, named, listed⟩
    obtain ⟨slot, stands⟩ := mem_allMembers.mp (held c p above named)
    exact ⟨slot, (inSlot stands).mpr ⟨named, listed⟩, stands⟩

/-- A named element that no other named element in the same container shares its name with, and
whose name can be a segment of a path. -/
structure Distinguished (m : Model) (p c : ElementId) : Prop where
  above : m.parent? c = some p
  named : (m.kind? c).any Kind.isNamed
  some : m.label c ≠ ""
  plain : '/' ∉ (m.label c).toList
  alone : ∀ other, m.parent? other = .some p → (m.kind? other).any Kind.isNamed →
    m.label other = m.label c → other = c

theorem Distinguished.memberNamed? {p c : ElementId} (distinguished : m.Distinguished p c)
    (sound : m.SlotsSound) (held : m.NamesHeld) :
    m.memberNamed? p (m.label c) = if m.isEnumParameter c then none else .some c := by
  have same {other : ElementId} (found : m.memberNamed? p (m.label c) = .some other) :
      other = c ∧ m.isEnumParameter other = false := by
    rw [sound.memberNamed?_eq] at found
    obtain ⟨above, named, listed⟩ :=
      (mem_nameable_iff sound held).mp (List.mem_of_find?_eq_some found)
    have label : m.label other = m.label c := by simpa using List.find?_some found
    exact ⟨distinguished.alone other above named label, listed⟩
  cases found : m.memberNamed? p (m.label c) with
  | some other =>
    obtain ⟨rfl, listed⟩ := same found
    rw [listed, if_neg Bool.false_ne_true]
  | none =>
    rw [sound.memberNamed?_eq, List.find?_eq_none] at found
    cases listed : m.isEnumParameter c with
    | true => rfl
    | false =>
      have member : c ∈ m.nameable p := (mem_nameable_iff sound held).mpr
        ⟨distinguished.above, distinguished.named, listed⟩
      exact absurd (decide_eq_true rfl) (found c member)

/-- Only the elements of the model can have the same name. -/
theorem distinguished_iff {p c : ElementId} : m.Distinguished p c ↔
    m.parent? c = some p ∧ (m.kind? c).any Kind.isNamed ∧ m.label c ≠ "" ∧
      '/' ∉ (m.label c).toList ∧
      ∀ i : Fin m.size, m.parent? ⟨i⟩ = some p → (m.kind? ⟨i⟩).any Kind.isNamed →
        m.label ⟨i⟩ = m.label c → (⟨i⟩ : ElementId) = c := by
  constructor
  · rintro ⟨above, named, some, plain, alone⟩
    exact ⟨above, named, some, plain, fun i => alone ⟨i⟩⟩
  · rintro ⟨above, named, some, plain, alone⟩
    refine ⟨above, named, some, plain, fun other aboveOther namedOther label => ?_⟩
    obtain ⟨e, found⟩ := exists_of_parent? aboveOther
    exact alone ⟨other.index, lt_size_of_get? found⟩ aboveOther namedOther label

instance (p c : ElementId) : Decidable (m.Distinguished p c) :=
  decidable_of_iff _ distinguished_iff.symm

/-! ## Paths -/

/-- The names on the way from an element down to one below it. -/
inductive Route (m : Model) : ElementId → List String → ElementId → Prop
  | last {p e : ElementId} : m.Distinguished p e → Route m p [m.label e] e
  | down {p c e : ElementId} {path : List String} :
      m.Distinguished p c → Route m c path e → Route m p (m.label c :: path) e

variable {p e : ElementId} {path : List String}

theorem Route.segments (route : m.Route p path e) : Reference.Segments path := by
  induction route with
  | last here => exact ⟨List.cons_ne_nil _ _, by simpa using ⟨here.some, here.plain⟩⟩
  | down here _ ih =>
    refine ⟨List.cons_ne_nil _ _, fun segment member => ?_⟩
    rcases List.mem_cons.mp member with rfl | later
    · exact ⟨here.some, here.plain⟩
    · exact ih.proper segment later

/-- Type parameters have no named members. -/
theorem Route.isEnumParameter_eq_false (route : m.Route p path e) (sound : m.SlotsSound)
    (held : m.NamesHeld) : m.isEnumParameter p = false := by
  have inner {c : ElementId} (here : m.Distinguished p c) : m.isEnumParameter p = false := by
    cases listed : m.isEnumParameter p with
    | false => rfl
    | true =>
      have known : m.kind? p = some .eTypeParameter := by
        rw [isEnumParameter, Bool.and_eq_true] at listed
        exact of_decide_eq_true listed.1
      have free : m.isEnumParameter c = false := by simp [isEnumParameter, here.above, known]
      have member := (mem_nameable_iff sound held).mpr ⟨here.above, here.named, free⟩
      simp [nameable_eq, known, Kind.nameSlots] at member
  cases route with
  | last here => exact inner here
  | down here => exact inner here

theorem Route.follow? (route : m.Route p path e) (sound : m.SlotsSound) (held : m.NamesHeld) :
    m.follow? p path = if m.isEnumParameter e then none else some e := by
  induction route with
  | last here =>
    rw [Model.follow?, here.memberNamed? sound held]
    split <;> rfl
  | down here rest ih =>
    rw [Model.follow?, here.memberNamed? sound held, rest.isEnumParameter_eq_false sound held]
    exact ih

/-- A path down the containers leads to the element at its end, unless that is a type parameter of
an enumeration. So does the fragment that writes the path, wherever the nearest package is the one
that the path starts from. -/
theorem Loaded.fragment_addresses (loaded : m.Loaded) {package : ElementId}
    (route : m.Route package path e) :
    m.follow? package path = (if m.isEnumParameter e then none else some e) ∧
      ∀ root peers holder, m.isPackage root → m.Within root holder →
        m.containingPackage? holder = some package →
        m.target (m.scope root holder) peers holder (Reference.fragment path).render =
          if m.isEnumParameter e then
            .error (.unresolvableReference (Reference.fragment path).render
              (some (m.qualifiedName holder)))
          else .ok e := by
  have wf := loaded.wellFormed
  have followed := route.follow? wf.toSlotsSound loaded.namesHeld
  refine ⟨followed, fun root peers holder isRoot within nearest => ?_⟩
  have read : Reference.ofString? (Reference.fragment path).render = some (.fragment path) :=
    Reference.ofString?_render_iff.mpr (.fragment route.segments)
  rw [← wf.head?_scope isRoot within] at nearest
  simp only [target, read, nearest, Option.bind_some, followed]
  cases m.isEnumParameter e <;> rfl

/-- A document with an enumeration that has a literal and a type parameter, and a note that refers
to the type parameter. -/
def paletteDocument : List Event :=
  [.opening "EPackage" (.ofList [("name", "palette")]),
    .opening "eEnums" (.ofList [("name", "Color")]),
    .opening "eLiterals" (.ofList [("name", "Red")]), .closing,
    .opening "eTypeParameters" (.ofList [("name", "T")]), .closing, .closing,
    .opening "eAnnotations" (.ofList [("references", "#//Color/T")]), .closing, .closing]

/-- The model with the elements of `paletteDocument`, numbered in its order. -/
def palette : Model :=
  (({} : Model).build "xsi:type" paletteDocument none).toOption.elim {} Prod.fst

theorem loaded_palette : palette.Loaded := by
  have built : ({} : Model).build "xsi:type" paletteDocument none = .ok (palette, ⟨0⟩) := rfl
  exact .document .empty built

theorem distinguished_color : palette.Distinguished ⟨0⟩ ⟨1⟩ := by
  decide +kernel

/-- The type parameter can be told from everything else in the package, and cannot be referred to. -/
theorem resolve_enum_parameter :
    palette.Loaded ∧ palette.Route ⟨0⟩ ["Color", "T"] ⟨3⟩ ∧
      palette.follow? ⟨0⟩ ["Color", "T"] = none ∧
      palette.resolve ⟨0⟩ [] =
        .error (.unresolvableReference "#//Color/T" (some "palette.<EAnnotation>")) := by
  have parameter : palette.Distinguished ⟨1⟩ ⟨3⟩ := by decide +kernel
  exact ⟨loaded_palette, .down distinguished_color (.last parameter), by decide +kernel, rfl⟩

/-- The literal can be referred to. -/
theorem fragment_addresses_literal :
    palette.Loaded ∧ palette.Route ⟨0⟩ ["Color", "Red"] ⟨2⟩ ∧
      palette.target (palette.scope ⟨0⟩ ⟨4⟩) [] ⟨4⟩ "#//Color/Red" = .ok ⟨2⟩ := by
  have literal : palette.Distinguished ⟨1⟩ ⟨2⟩ := by decide +kernel
  have route : palette.Route ⟨0⟩ ["Color", "Red"] ⟨2⟩ := .down distinguished_color (.last literal)
  have note : ⟨4⟩ ∈ palette.members .annotations ⟨0⟩ := by decide +kernel
  exact ⟨loaded_palette, route, (loaded_palette.fragment_addresses route).2 ⟨0⟩ [] ⟨4⟩
    (by decide +kernel) (.member .self note) (by decide +kernel)⟩

end Model

end Metamodel
