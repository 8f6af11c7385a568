import Metamodel.Proofs.Loaded

/-!
Elements under other ids.

A renaming replaces every id that an element has or holds. What the operations do to an element does
not depend on the ids themselves, so each of them may be done before a renaming or after it. A model
that is put behind another one is renamed by moving its ids up.

Results:
1. `Body.rename_place`, `Body.rename_ownedBy`, `Element.rename_set?`: operations on one element.
2. `get?_followedBy_of_lt`, `get?_followedBy_shift`: the elements of a model followed by another.
3. `followedBy_append`, `followedBy_modify`, `followedBy_attach`: the basic operations on a model
   that follows another.
4. `followedBy_addStandardPackage`: the standard package is the same behind every model.
-/

namespace Metamodel

namespace OrderedMap

variable {α β : Type}

/-- Changes the values and keeps the keys. -/
def map (f : α → β) (m : OrderedMap α) : OrderedMap β where
  entries := m.entries.map fun entry => (entry.1, f entry.2)
  nodup_keys := by simpa [Function.comp_def] using m.nodup_keys

variable (f : α → β) (m : OrderedMap α)

theorem entries_map : (m.map f).entries = m.entries.map fun entry => (entry.1, f entry.2) := rfl

theorem keys_map : (m.map f).keys = m.keys := by
  simp [map, keys]

theorem get?_map (key : String) : (m.map f).get? key = (m.get? key).map f := by
  unfold get? map
  dsimp only
  induction m.entries with
  | nil => rfl
  | cons entry rest ih =>
    rw [List.map_cons, List.lookup_cons, List.lookup_cons, ih]
    cases key == entry.1 <;> rfl

theorem contains_map (key : String) : (m.map f).contains key = m.contains key := by
  rw [contains, contains, get?_map, Option.isSome_map]

theorem eq_of_entries {m m' : OrderedMap α} (same : m.entries = m'.entries) : m = m' := by
  cases m
  cases m'
  cases same
  rfl

theorem entries_insert (key : String) (a : α) :
    (m.insert key a).entries =
      if key ∈ m.keys then m.entries.map (replaceValue key a) else m.entries ++ [(key, a)] := by
  unfold insert keys
  split <;> rfl

theorem map_insert (key : String) (a : α) :
    (m.insert key a).map f = (m.map f).insert key (f a) := by
  have replaced (entry : String × α) :
      replaceValue key (f a) (entry.1, f entry.2) =
        ((replaceValue key a entry).1, f (replaceValue key a entry).2) := by
    unfold replaceValue
    split <;> rfl
  refine eq_of_entries ?_
  rw [entries_map, entries_insert, entries_insert, keys_map, entries_map]
  split
  · simp [replaced]
  · simp

end OrderedMap

/-! ## Renaming what an element holds -/

def Link.rename (f : ElementId → ElementId) : Link → Link
  | .symbolic uri => .symbolic uri
  | .resolved target => .resolved (f target)

namespace Body

variable (f : ElementId → ElementId)

def renameClassifier (c : Classifier) : Classifier :=
  { c with typeParameters := c.typeParameters.map f, package := c.package.map f }

def renameTyped (t : TypedElement) : TypedElement :=
  { t with eType := t.eType.map (Link.rename f), genericType := t.genericType.map f }

def renameFeature (s : StructuralFeature) : StructuralFeature :=
  { s with
    toTypedElement := renameTyped f s.toTypedElement
    containingClass := s.containingClass.map f }

def renameDataType (d : EDataType) : EDataType :=
  { d with toClassifier := renameClassifier f d.toClassifier }

/-- A body with every id in it replaced. -/
def rename : Body → Body
  | .ePackage p => .ePackage
      { p with
        factoryInstance := p.factoryInstance.map (Link.rename f)
        classes := p.classes.map f
        dataTypes := p.dataTypes.map f
        subpackages := p.subpackages.map f
        package := p.package.map f }
  | .eClass c => .eClass
      { c with
        toClassifier := renameClassifier f c.toClassifier
        superTypes := c.superTypes.map (Link.rename f)
        attributes := c.attributes.map f
        references := c.references.map f
        operations := c.operations.map f
        genericSuperTypes := c.genericSuperTypes.map f }
  | .eDataType d => .eDataType (renameDataType f d)
  | .eEnum e => .eEnum
      { e with toEDataType := renameDataType f e.toEDataType, literals := e.literals.map f }
  | .eEnumLiteral l => .eEnumLiteral { l with owner := l.owner.map f }
  | .eAttribute a => .eAttribute
      { a with toStructuralFeature := renameFeature f a.toStructuralFeature }
  | .eReference r => .eReference
      { r with
        toStructuralFeature := renameFeature f r.toStructuralFeature
        opposite := r.opposite.map (Link.rename f)
        keys := r.keys.map (Link.rename f) }
  | .eOperation o => .eOperation
      { o with
        toTypedElement := renameTyped f o.toTypedElement
        parameters := o.parameters.map f
        typeParameters := o.typeParameters.map f
        exceptions := o.exceptions.map (Link.rename f)
        containingClass := o.containingClass.map f }
  | .eParameter p => .eParameter
      { p with toTypedElement := renameTyped f p.toTypedElement, operation := p.operation.map f }
  | .eTypeParameter t => .eTypeParameter { t with bounds := t.bounds.map f }
  | .eNote a => .eNote
      { a with contents := a.contents.map f, references := a.references.map (Link.rename f) }
  | .eGenericType g => .eGenericType
      { g with
        classifier := g.classifier.map (Link.rename f)
        typeParameter := g.typeParameter.map (Link.rename f)
        lowerBound := g.lowerBound.map f
        upperBound := g.upperBound.map f
        typeArguments := g.typeArguments.map f }

@[simp]
theorem kind_rename (b : Body) : (b.rename f).kind = b.kind := by
  cases b <;> rfl

theorem rename_blank (k : Kind) : (blank k).rename f = blank k := by
  cases k <;> rfl

theorem table?_rename (slot : Slot) (b : Body) :
    (b.rename f).table? slot = (b.table? slot).map (OrderedMap.map f) := by
  cases b <;> cases slot <;> rfl

theorem rename_place (slot : Slot) (name : String) (member : ElementId) (b : Body) :
    (b.place slot name member).rename f = (b.rename f).place slot name (f member) := by
  cases b <;> cases slot <;>
    first
    | rfl
    | simp [place, mapPackage, mapClass, mapOperation, mapClassifier, mapGenericType, rename,
        renameClassifier, renameDataType, OrderedMap.map_insert]

theorem rename_ownedBy (owner : ElementId) (b : Body) :
    (b.ownedBy owner).rename f = (b.rename f).ownedBy (f owner) := by
  cases b <;> rfl

end Body

namespace Element

variable (f : ElementId → ElementId)

/-- An element with its id and every id that it holds replaced. -/
def rename (e : Element) : Element where
  id := f e.id
  name := e.name
  parent := e.parent.map f
  annotations := e.annotations.map f
  body := e.body.rename f

@[simp]
theorem kind_rename (e : Element) : (e.rename f).kind = e.kind := Body.kind_rename f e.body

@[simp]
theorem label_rename (e : Element) : (e.rename f).label = e.label := rfl

theorem rename_blank (id : ElementId) (kind : Kind) :
    (blank id kind).rename f = blank (f id) kind := by
  simp [blank, rename, Body.rename_blank]

theorem rename_place (slot : Slot) (name : String) (member : ElementId) (e : Element) :
    (e.place slot name member).rename f = (e.rename f).place slot name (f member) := by
  unfold place
  split
  · simp [rename]
  · simp [rename, Body.rename_place]

theorem rename_ownedBy (owner : ElementId) (e : Element) :
    (e.ownedBy owner).rename f = (e.rename f).ownedBy (f owner) := by
  simp [ownedBy, rename, Body.rename_ownedBy]

theorem hasMemberNamed_rename (slot : Slot) (name : String) (e : Element) :
    (e.rename f).hasMemberNamed slot name = e.hasMemberNamed slot name := by
  change ((e.body.rename f).table? slot).any (·.contains name) = (e.body.table? slot).any _
  rw [Body.table?_rename]
  cases e.body.table? slot with
  | none => rfl
  | some table => exact OrderedMap.contains_map f table name

/-! ## Attributes -/

open PropertyFormat in
theorem rename_linkList (value : String) :
    (linkList value).map (Link.rename f) = linkList value := by
  simp [linkList, Function.comp_def, Link.rename]

theorem rename_mapBody {g : Body → Body} (same : ∀ b, (g b).rename f = g (b.rename f))
    (e : Element) : (e.rename f).mapBody g = (e.mapBody g).rename f := by
  simp [mapBody, rename, same]

/-- Attributes set texts, flags, numbers and symbolic links, none of which holds an id. -/
theorem rename_set? (e : Element) (p : Property) (value : String) :
    (e.rename f).set? p value = (e.set? p value).map (rename f) := by
  cases p <;> simp only [set?, Option.map_some, Option.map_map, Function.comp_def]
  case name => rfl
  all_goals
    first
    | refine congrArg some (rename_mapBody f (fun b => ?_) e)
    | refine congrArg (Option.map · _) (funext fun x => rename_mapBody f (fun b => ?_) e)
  case superTypes | keys | exceptions | references =>
    cases b <;> simp [Body.rename, Body.mapClass, Body.mapReference, Body.mapOperation,
      Body.mapNote, rename_linkList]
  all_goals cases b <;> rfl

theorem rename_applyAttribute (e : Element) (key value : String) :
    (e.rename f).applyAttribute key value = (e.applyAttribute key value).map (rename f) := by
  unfold applyAttribute
  rw [kind_rename]
  cases Property.find? e.kind key with
  | none => rfl
  | some p =>
    simp only [rename_set?]
    cases e.set? p value <;> rfl

/-- What attributes lead to, under other ids. -/
def renameOutcome : Except (Error × Element) Element → Except (Error × Element) Element
  | .ok e => .ok (e.rename f)
  | .error (error, e) => .error (error, e.rename f)

theorem rename_applyAttributes (skip : String) (attributes : List (String × String))
    (e : Element) :
    applyAttributes skip attributes (e.rename f) =
      renameOutcome f (applyAttributes skip attributes e) := by
  induction attributes generalizing e with
  | nil => rfl
  | cons entry rest ih =>
    obtain ⟨key, value⟩ := entry
    unfold applyAttributes
    split
    · exact ih e
    · rw [rename_applyAttribute]
      cases e.applyAttribute key value with
      | ok e' => exact ih e'
      | error error => rfl

end Element

/-! ## A model behind another one -/

/-- The id that an element gets behind `count` others. -/
def ElementId.shift (count : Nat) (id : ElementId) : ElementId := ⟨count + id.index⟩

namespace Model

/-- The elements of a model and then those of `c`, under the ids that they get there. -/
def followedBy (m c : Model) : Model :=
  ⟨m.elements ++ c.elements.map (Element.rename (.shift m.size))⟩

section FollowedBy

variable (m c : Model)

theorem followedBy_empty : m.followedBy {} = m := by
  simp [followedBy]

@[simp]
theorem size_followedBy : (m.followedBy c).size = m.size + c.size := by
  simp [followedBy, size]

theorem nextId_followedBy : (m.followedBy c).nextId = c.nextId.shift m.size := by
  simp [nextId, ElementId.shift]

theorem get?_followedBy_of_lt {id : ElementId} (old : id.index < m.size) :
    (m.followedBy c).get? id = m.get? id := by
  simp only [get?, followedBy]
  rw [Array.getElem?_append_left old]

theorem get?_followedBy_shift (id : ElementId) :
    (m.followedBy c).get? (id.shift m.size) = (c.get? id).map (Element.rename (.shift m.size)) := by
  simp only [get?, followedBy, ElementId.shift]
  have behind : m.elements.size ≤ m.size + id.index := Nat.le_add_right _ _
  rw [Array.getElem?_append_right behind, Array.getElem?_map]
  simp [size]

/-- Each id belongs to the first model or is one of the second model moved up. -/
theorem lt_size_or_exists_shift (id : ElementId) :
    id.index < m.size ∨ ∃ other : ElementId, id = other.shift m.size := by
  by_cases old : id.index < m.size
  · exact .inl old
  · refine .inr ⟨⟨id.index - m.size⟩, ?_⟩
    obtain ⟨index⟩ := id
    simp only [ElementId.shift, ElementId.mk.injEq]
    simp only at old
    omega

theorem shift_inj {count : Nat} {a b : ElementId} : a.shift count = b.shift count ↔ a = b := by
  obtain ⟨a⟩ := a
  obtain ⟨b⟩ := b
  simp [ElementId.shift]

/-! ## The operations behind another model -/

theorem followedBy_append (e : Element) :
    m.followedBy (c.append e) = (m.followedBy c).append (e.rename (.shift m.size)) := by
  simp [followedBy, append]

theorem followedBy_modify {f g : Element → Element} {id : ElementId}
    (same : ∀ e, (f e).rename (.shift m.size) = g (e.rename (.shift m.size))) :
    m.followedBy (c.modify id f) = (m.followedBy c).modify (id.shift m.size) g := by
  refine eq_of_get? fun other => ?_
  rw [get?_modify]
  rcases m.lt_size_or_exists_shift other with old | ⟨other, rfl⟩
  · have ne : other ≠ id.shift m.size := by
      rintro rfl
      simp only [ElementId.shift] at old
      omega
    rw [if_neg ne, get?_followedBy_of_lt m _ old, get?_followedBy_of_lt m _ old]
  · simp only [get?_followedBy_shift, get?_modify, shift_inj]
    split
    · cases c.get? id <;> simp [same]
    · rfl

theorem followedBy_modifyBody {f g : Body → Body} {id : ElementId}
    (same : ∀ b, (f b).rename (.shift m.size) = g (b.rename (.shift m.size))) :
    m.followedBy (c.modifyBody id f) = (m.followedBy c).modifyBody (id.shift m.size) g :=
  followedBy_modify m c fun e => by simp [Element.rename, same]

theorem label_followedBy (id : ElementId) :
    (m.followedBy c).label (id.shift m.size) = c.label id := by
  unfold label
  rw [get?_followedBy_shift]
  cases c.get? id <;> rfl

theorem kind?_followedBy (id : ElementId) :
    (m.followedBy c).kind? (id.shift m.size) = c.kind? id := by
  unfold kind?
  rw [get?_followedBy_shift]
  cases c.get? id <;> simp

theorem parent?_followedBy (id : ElementId) :
    (m.followedBy c).parent? (id.shift m.size) = (c.parent? id).map (.shift m.size) := by
  unfold parent?
  rw [get?_followedBy_shift]
  cases c.get? id <;> rfl

theorem followedBy_attach (slot : Slot) (owner member : ElementId) :
    m.followedBy (c.attach slot owner member) =
      (m.followedBy c).attach slot (owner.shift m.size) (member.shift m.size) := by
  unfold attach
  rw [label_followedBy]
  refine (followedBy_modify m _ (Element.rename_ownedBy _ owner)).trans ?_
  rw [followedBy_modify m c (Element.rename_place _ slot (c.label member) member)]

theorem followedBy_create (kind : Kind) (name : Option String) :
    m.followedBy (c.create kind name) = (m.followedBy c).create kind name := by
  have blank : { Element.blank c.nextId kind with name := name }.rename (.shift m.size) =
      { Element.blank (c.nextId.shift m.size) kind with name := name } := by
    simp [Element.blank, Element.rename, Body.rename_blank]
  rw [create, create, followedBy_append, blank, nextId_followedBy]

theorem followedBy_createIn (slot : Slot) (owner : ElementId) (kind : Kind) (name : String) :
    m.followedBy (c.createIn slot owner kind name) =
      (m.followedBy c).createIn slot (owner.shift m.size) kind name := by
  rw [createIn, createIn, followedBy_attach, followedBy_create, nextId_followedBy]

theorem package?_followedBy (id : ElementId) :
    (m.followedBy c).package? (id.shift m.size) =
      (c.package? id).map fun p =>
        { p with
          factoryInstance := p.factoryInstance.map (Link.rename (.shift m.size))
          classes := p.classes.map (.shift m.size)
          dataTypes := p.dataTypes.map (.shift m.size)
          subpackages := p.subpackages.map (.shift m.size)
          package := p.package.map (.shift m.size) } := by
  unfold package? body?
  rw [get?_followedBy_shift]
  cases c.get? id with
  | none => rfl
  | some e =>
    obtain ⟨id, name, parent, annotations, body⟩ := e
    cases body <;> rfl

/-- Steps that may each be done behind another model may be done there together. -/
theorem followedBy_foldl {α : Type} {f g : Model → α → Model}
    (step : ∀ c a, m.followedBy (f c a) = g (m.followedBy c) a) (l : List α) :
    m.followedBy (l.foldl f c) = l.foldl g (m.followedBy c) :=
  (List.foldl_hom m.followedBy fun c a => (step c a).symm).symm

/-- Creating several members of one owner, each with an edit that a renaming may come before. -/
theorem followedBy_foldl_createIn {α : Type} (slot : Slot) {owner owner' : ElementId} (kind : Kind)
    (label : α → String) {edit edit' : α → Body → Body} (items : List α)
    (same : owner' = owner.shift m.size)
    (step : ∀ a b, (edit a b).rename (.shift m.size) = edit' a (b.rename (.shift m.size))) :
    m.followedBy (items.foldl
      (fun m a => (m.createIn slot owner kind (label a)).modifyBody m.nextId (edit a)) c) =
    items.foldl
      (fun m a => (m.createIn slot owner' kind (label a)).modifyBody m.nextId (edit' a))
      (m.followedBy c) := by
  refine followedBy_foldl m c (fun c a => ?_) items
  rw [followedBy_modifyBody m _ (step a), followedBy_createIn, nextId_followedBy, same]

/-- The standard package does not depend on what it is put behind. -/
theorem followedBy_addStandardPackage :
    m.followedBy c.addStandardPackage = (m.followedBy c).addStandardPackage := by
  have edit (text : String) (b : Body) :
      (b.mapClassifier fun c => { c with instanceClassName := some text }).rename (.shift m.size) =
        (b.rename (.shift m.size)).mapClassifier fun c =>
          { c with instanceClassName := some text } := by
    cases b <;> rfl
  unfold addStandardPackage
  extract_lets package withTypes withObject entry withEntry stringType
    package' withTypes' withObject' entry' withEntry' stringType'
  have samePackage : package' = package.shift m.size := nextId_followedBy m c
  have sameTypes : m.followedBy withTypes = withTypes' := by
    refine (followedBy_foldl_createIn m _ .dataTypes .eDataType Prod.fst Standard.dataTypes
      samePackage fun entry => edit entry.2).trans ?_
    rw [followedBy_modifyBody m _ (g := Body.mapPackage fun p =>
      { p with
        nsUri := some Standard.nsUri
        nsPrefix := some Standard.nsPrefix
        resolved := true }) (fun b => by cases b <;> rfl), followedBy_create, ← samePackage]
  have sameObject : m.followedBy withObject = withObject' := by
    rw [followedBy_createIn, sameTypes, ← samePackage]
  have sameEntry : entry' = entry.shift m.size := by
    rw [← nextId_followedBy, sameObject]
  have sameBoth : m.followedBy withEntry = withEntry' := by
    rw [followedBy_modifyBody m _ (edit _), followedBy_createIn, sameObject, ← samePackage,
      ← sameEntry]
  have sameString : stringType' = stringType.map (.shift m.size) := by
    simp only [stringType', stringType, ← sameBoth, samePackage, package?_followedBy]
    cases withEntry.package? package with
    | none => rfl
    | some p => exact OrderedMap.get?_map _ p.dataTypes Standard.stringType
  have link (b : Body) :
      (b.mapTyped fun t => { t with eType := stringType.map .resolved }).rename (.shift m.size) =
        (b.rename (.shift m.size)).mapTyped fun t =>
          { t with eType := stringType'.map .resolved } := by
    rw [sameString]
    cases b <;> cases stringType <;> rfl
  refine (followedBy_foldl_createIn m _ .attributes .eAttribute (fun name => name)
    ["key", "value"] sameEntry fun _ => link).trans ?_
  rw [sameBoth]

end FollowedBy

end Model

end Metamodel
