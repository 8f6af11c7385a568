import Metamodel.Model.Containment

/-!
The outline of a model: what containment reads of it, and how the basic operations change that.

Two bodies of one outline hold the same elements in the same slots and note the same owner. Links,
flags and texts do not belong to the outline, so an operation that only writes those is dealt with
once (`SameOutline`), and every other change of a model is an `append` or an `attach`.

Results:
1. `Element.members_place`: placing a member changes one slot.
2. `members_attach`, `parent?_attach`, `noted?_attach`, `table?_attach`: all that `attach` changes.
3. `SameOutline.members` and its siblings: a model of the same outline contains the same elements.
-/

namespace Metamodel

namespace Slot

/-- Slots that hold one element, which another one may take the place of. -/
def isSingle : Slot → Bool
  | .genericType | .lowerBound | .upperBound => true
  | _ => false

/-- What a slot holds when `member` has been placed into it. -/
def grown (slot : Slot) (held : List ElementId) (member : ElementId) : List ElementId :=
  if slot.isSingle then [member] else held ++ [member]

theorem mem_grown {slot : Slot} {held : List ElementId} {member c : ElementId} :
    c ∈ slot.grown held member ↔ c = member ∨ slot.isSingle = false ∧ c ∈ held := by
  unfold grown
  cases slot.isSingle <;> simp [or_comm]

end Slot

/-- The kinds whose elements note their owner themselves. -/
def Kind.notesOwner : Kind → Bool
  | .eTypeParameter | .eNote | .eGenericType => false
  | _ => true

namespace OrderedMap

variable {α : Type}

theorem entries_insert_new {m : OrderedMap α} {key : String} {value : α}
    (new : m.contains key = false) :
    (m.insert key value).entries = m.entries ++ [(key, value)] := by
  have absent : key ∉ m.entries.map Prod.fst := by
    intro known
    rw [(contains_iff_mem_keys m key).mpr known] at new
    exact Bool.noConfusion new
  unfold insert
  rw [dif_neg absent]

theorem values_insert_new {m : OrderedMap α} {key : String} {value : α}
    (new : m.contains key = false) : (m.insert key value).values = m.values ++ [value] := by
  simp [values, entries_insert_new new]

/-- Entries with new keys are inserted behind those that are there. -/
theorem entries_foldl_insert (rest : List (String × α)) (m : OrderedMap α)
    (distinct : ((m.entries ++ rest).map Prod.fst).Nodup) :
    (rest.foldl (fun m entry => m.insert entry.1 entry.2) m).entries = m.entries ++ rest := by
  induction rest generalizing m with
  | nil => rw [List.foldl_nil, List.append_nil]
  | cons entry rest ih =>
    have new : m.contains entry.1 = false := by
      rw [← Bool.not_eq_true, contains_iff_mem_keys]
      intro known
      rw [List.map_append, List.nodup_append] at distinct
      exact distinct.2.2 _ known _ List.mem_cons_self rfl
    have inserted : (m.insert entry.1 entry.2).entries ++ rest = m.entries ++ entry :: rest := by
      rw [entries_insert_new new, List.append_assoc, List.singleton_append]
    rw [List.foldl_cons, ih _ (inserted ▸ distinct), inserted]

/-- The table of the entries of a table is that table. -/
theorem ofList_entries (m : OrderedMap α) : ofList m.entries = m := by
  have same : (ofList m.entries).entries = m.entries :=
    entries_foldl_insert m.entries ∅ m.nodup_keys
  cases m
  cases made : ofList _
  simp_all

end OrderedMap

namespace Body

/-- The elements that an annotation has as its contents. No slot shows them. -/
def noteContents (b : Body) : List ElementId := b.note?.elim [] (·.contents)

/-- The table of a slot that holds its members by name. -/
def table? (slot : Slot) (b : Body) : Option (OrderedMap ElementId) :=
  b.package?.bind (·.table? slot)

/-- What containment reads of a body; the rest is left blank. -/
def outline : Body → Body
  | .ePackage p => .ePackage
      { classes := p.classes, dataTypes := p.dataTypes, subpackages := p.subpackages
        package := p.package }
  | .eClass c => .eClass
      { typeParameters := c.typeParameters, package := c.package, attributes := c.attributes
        references := c.references, operations := c.operations
        genericSuperTypes := c.genericSuperTypes }
  | .eDataType d => .eDataType { typeParameters := d.typeParameters, package := d.package }
  | .eEnum e => .eEnum
      { typeParameters := e.typeParameters, package := e.package, literals := e.literals }
  | .eEnumLiteral l => .eEnumLiteral { owner := l.owner }
  | .eAttribute a => .eAttribute
      { genericType := a.genericType, containingClass := a.containingClass }
  | .eReference r => .eReference
      { genericType := r.genericType, containingClass := r.containingClass }
  | .eOperation o => .eOperation
      { genericType := o.genericType, parameters := o.parameters
        typeParameters := o.typeParameters, containingClass := o.containingClass }
  | .eParameter p => .eParameter { genericType := p.genericType, operation := p.operation }
  | .eTypeParameter t => .eTypeParameter { bounds := t.bounds }
  | .eNote a => .eNote { contents := a.contents }
  | .eGenericType g => .eGenericType
      { lowerBound := g.lowerBound, upperBound := g.upperBound, typeArguments := g.typeArguments }

@[simp]
theorem kind_outline (b : Body) : b.outline.kind = b.kind := by
  cases b <;> rfl

@[simp]
theorem members_outline (slot : Slot) (b : Body) : b.outline.members slot = b.members slot := by
  cases b <;> cases slot <;> rfl

@[simp]
theorem noted?_outline (b : Body) : b.outline.noted? = b.noted? := by
  cases b <;> rfl

@[simp]
theorem noteContents_outline (b : Body) : b.outline.noteContents = b.noteContents := by
  cases b <;> rfl

@[simp]
theorem table?_outline (slot : Slot) (b : Body) : b.outline.table? slot = b.table? slot := by
  cases b <;> cases slot <;> rfl

/-- A slot that holds its members by name shows the values of its table. -/
theorem members_eq_values {slot : Slot} {b : Body} {table : OrderedMap ElementId}
    (h : b.table? slot = some table) : b.members slot = table.values := by
  cases b <;> cases slot <;> first | cases h; rfl | exact nomatch h

/-! ## Placing a member -/

theorem members_place_ne {slot other : Slot} (ne : other ≠ slot) (name : String)
    (member : ElementId) (b : Body) :
    (b.place slot name member).members other = b.members other := by
  cases b <;> cases slot <;>
    first
    | rfl
    | cases other <;> first | rfl | exact absurd rfl ne

theorem members_place_self {slot : Slot} {b : Body} {name : String} {member : ElementId}
    (own : slot ≠ .annotations) (on : slot.isOn b.kind)
    (free : (b.table? slot).any (·.contains name) = false) :
    (b.place slot name member).members slot = slot.grown (b.members slot) member := by
  cases b <;> cases slot <;>
    first
    | rfl
    | exact Bool.noConfusion on
    | exact absurd rfl own
    | exact OrderedMap.values_insert_new free

theorem table?_place_ne {slot other : Slot} (ne : other ≠ slot) (name : String)
    (member : ElementId) (b : Body) :
    (b.place slot name member).table? other = b.table? other := by
  cases b <;> cases slot <;>
    first
    | rfl
    | cases other <;> first | rfl | exact absurd rfl ne

theorem table?_place_self (slot : Slot) (name : String) (member : ElementId) (b : Body) :
    (b.place slot name member).table? slot = (b.table? slot).map (·.insert name member) := by
  cases b <;> cases slot <;> rfl

@[simp]
theorem kind_place (slot : Slot) (name : String) (member : ElementId) (b : Body) :
    (b.place slot name member).kind = b.kind := by
  cases b <;> cases slot <;> rfl

@[simp]
theorem noted?_place (slot : Slot) (name : String) (member : ElementId) (b : Body) :
    (b.place slot name member).noted? = b.noted? := by
  cases b <;> cases slot <;> rfl

@[simp]
theorem noteContents_place (slot : Slot) (name : String) (member : ElementId) (b : Body) :
    (b.place slot name member).noteContents = b.noteContents := by
  cases b <;> cases slot <;> rfl

/-! ## Noting the owner -/

@[simp]
theorem kind_ownedBy (owner : ElementId) (b : Body) : (b.ownedBy owner).kind = b.kind := by
  cases b <;> rfl

@[simp]
theorem members_ownedBy (slot : Slot) (owner : ElementId) (b : Body) :
    (b.ownedBy owner).members slot = b.members slot := by
  cases b <;> cases slot <;> rfl

@[simp]
theorem table?_ownedBy (slot : Slot) (owner : ElementId) (b : Body) :
    (b.ownedBy owner).table? slot = b.table? slot := by
  cases b <;> cases slot <;> rfl

@[simp]
theorem noteContents_ownedBy (owner : ElementId) (b : Body) :
    (b.ownedBy owner).noteContents = b.noteContents := by
  cases b <;> rfl

theorem noted?_ownedBy {b : Body} (notes : b.kind.notesOwner) (owner : ElementId) :
    (b.ownedBy owner).noted? = some owner := by
  cases b <;> first | rfl | exact Bool.noConfusion notes

end Body

namespace Element

/-- What containment reads of an element. -/
def outline (e : Element) : Element := { e with body := e.body.outline }

@[simp]
theorem kind_outline (e : Element) : e.outline.kind = e.kind := Body.kind_outline e.body

@[simp]
theorem members_outline (slot : Slot) (e : Element) : e.outline.members slot = e.members slot := by
  simp [members, outline]

theorem members_place {slot : Slot} {e : Element} {name : String} (member : ElementId)
    (on : slot.isOn e.kind) (free : e.hasMemberNamed slot name = false) (other : Slot) :
    (e.place slot name member).members other =
      if other = slot then slot.grown (e.members slot) member else e.members other := by
  unfold members place
  by_cases annotated : slot = .annotations
  · subst annotated
    by_cases same : other = .annotations <;> simp [same, Slot.grown, Slot.isSingle]
  · by_cases same : other = slot
    · subst same
      simp only [if_neg annotated, if_true]
      exact Body.members_place_self annotated on free
    · by_cases note : other = .annotations
      · simp [note, annotated, Ne.symm annotated]
      · simp [note, annotated, same, Body.members_place_ne same]

@[simp]
theorem kind_place (slot : Slot) (name : String) (member : ElementId) (e : Element) :
    (e.place slot name member).kind = e.kind := by
  unfold place kind
  split <;> simp

theorem table?_place {slot : Slot} {name : String} {member : ElementId} {e : Element}
    (other : Slot) :
    (e.place slot name member).body.table? other =
      if other = slot then (e.body.table? slot).map (·.insert name member)
      else e.body.table? other := by
  unfold place
  by_cases annotated : slot = .annotations
  · subst annotated
    by_cases same : other = .annotations
    · subst same
      cases h : e.body <;> rfl
    · simp [same]
  · by_cases same : other = slot
    · subst same
      simp [annotated, Body.table?_place_self]
    · simp [annotated, same, Body.table?_place_ne same]

@[simp]
theorem members_ownedBy (slot : Slot) (owner : ElementId) (e : Element) :
    (e.ownedBy owner).members slot = e.members slot := by
  simp [members, ownedBy]

@[simp]
theorem kind_ownedBy (owner : ElementId) (e : Element) : (e.ownedBy owner).kind = e.kind :=
  Body.kind_ownedBy owner e.body

end Element

namespace Model

theorem eq_of_get? {m m' : Model} (same : ∀ id, m'.get? id = m.get? id) : m' = m := by
  obtain ⟨elements⟩ := m
  obtain ⟨elements'⟩ := m'
  have equal : elements' = elements := Array.ext_getElem? fun i => same ⟨i⟩
  rw [equal]

/-- The owner that an element notes itself. -/
def noted? (m : Model) (id : ElementId) : Option ElementId := (m.body? id).bind Body.noted?

/-- The table of a slot of an element that holds its members by name. -/
def table? (m : Model) (slot : Slot) (id : ElementId) : Option (OrderedMap ElementId) :=
  (m.body? id).bind (Body.table? slot)

/-- The contents of an annotation; none for other elements. -/
def noteContents (m : Model) (id : ElementId) : List ElementId :=
  ((m.body? id).map Body.noteContents).getD []

/-! ## Attaching -/

section Attach

variable {m : Model} {slot : Slot} {owner member : ElementId} {container content : Element}

theorem label_of_get? (there : m.get? member = some content) : m.label member = content.label := by
  simp [label, there]

theorem get?_attach (held : m.get? owner = some container) (free : m.get? member = some content)
    (ne : owner ≠ member) (id : ElementId) :
    (m.attach slot owner member).get? id =
      if id = member then some (content.ownedBy owner)
      else if id = owner then some (container.place slot content.label member)
      else m.get? id := by
  unfold attach
  rw [get?_modify, get?_modify, get?_modify, if_neg ne.symm, label_of_get? free, free, held]
  rfl

theorem kind?_attach (held : m.get? owner = some container) (free : m.get? member = some content)
    (ne : owner ≠ member) (id : ElementId) :
    (m.attach slot owner member).kind? id = m.kind? id := by
  unfold kind?
  rw [get?_attach held free ne]
  by_cases isMember : id = member
  · simp [isMember, free]
  · by_cases isOwner : id = owner
    · simp [isOwner, ne, held]
    · simp [isMember, isOwner]

theorem label_attach (held : m.get? owner = some container) (free : m.get? member = some content)
    (ne : owner ≠ member) (id : ElementId) :
    (m.attach slot owner member).label id = m.label id := by
  unfold label
  rw [get?_attach held free ne]
  by_cases isMember : id = member
  · simp [isMember, free, Element.ownedBy, Element.label]
  · by_cases isOwner : id = owner
    · simp only [isOwner, ne, held, if_true, if_false, Option.map_some, Element.label]
      unfold Element.place
      split <;> rfl
    · simp [isMember, isOwner]

theorem parent?_attach (held : m.get? owner = some container) (free : m.get? member = some content)
    (ne : owner ≠ member) (id : ElementId) :
    (m.attach slot owner member).parent? id = if id = member then some owner else m.parent? id := by
  unfold parent?
  rw [get?_attach held free ne]
  by_cases isMember : id = member
  · simp [isMember, Element.ownedBy]
  · by_cases isOwner : id = owner
    · simp only [isOwner, ne, held, if_true, if_false, Option.bind_some]
      unfold Element.place
      split <;> rfl
    · simp [isMember, isOwner]

theorem noted?_attach (held : m.get? owner = some container) (free : m.get? member = some content)
    (ne : owner ≠ member) (id : ElementId) :
    (m.attach slot owner member).noted? id =
      if id = member then (content.body.ownedBy owner).noted? else m.noted? id := by
  unfold noted? body?
  rw [get?_attach held free ne]
  by_cases isMember : id = member
  · simp [isMember, Element.ownedBy]
  · by_cases isOwner : id = owner
    · simp only [isOwner, ne, held, if_true, if_false, Option.map_some, Option.bind_some]
      unfold Element.place
      split <;> simp
    · simp [isMember, isOwner]

theorem noteContents_attach (held : m.get? owner = some container)
    (free : m.get? member = some content) (ne : owner ≠ member) (id : ElementId) :
    (m.attach slot owner member).noteContents id = m.noteContents id := by
  unfold noteContents body?
  rw [get?_attach held free ne]
  by_cases isMember : id = member
  · simp [isMember, free, Element.ownedBy]
  · by_cases isOwner : id = owner
    · simp only [isOwner, ne, held, if_true, if_false, Option.map_some]
      unfold Element.place
      split <;> simp
    · simp [isMember, isOwner]

theorem table?_attach (held : m.get? owner = some container) (free : m.get? member = some content)
    (ne : owner ≠ member) (other : Slot) (id : ElementId) :
    (m.attach slot owner member).table? other id =
      if id = owner ∧ other = slot then (m.table? slot owner).map (·.insert content.label member)
      else m.table? other id := by
  unfold table? body?
  rw [get?_attach held free ne]
  by_cases isMember : id = member
  · simp [isMember, Ne.symm ne, free, Element.ownedBy]
  · by_cases isOwner : id = owner
    · simp only [isOwner, ne, held, if_true, if_false, Option.map_some, Option.bind_some, true_and,
        Element.table?_place]
    · simp [isMember, isOwner]

theorem members_attach (held : m.get? owner = some container) (free : m.get? member = some content)
    (ne : owner ≠ member) (on : slot.isOn container.kind)
    (newName : container.hasMemberNamed slot content.label = false) (other : Slot)
    (id : ElementId) :
    (m.attach slot owner member).members other id =
      if id = owner ∧ other = slot then slot.grown (m.members slot owner) member
      else m.members other id := by
  unfold members
  rw [get?_attach held free ne]
  by_cases isMember : id = member
  · simp [isMember, Ne.symm ne, free]
  · by_cases isOwner : id = owner
    · simp only [isOwner, ne, held, if_true, if_false, Option.map_some, Option.getD_some, true_and,
        Element.members_place member on newName]
    · simp [isMember, isOwner]

end Attach

/-! ## Models of one outline -/

/-- The models contain the same elements in the same way. -/
def SameOutline (m m' : Model) : Prop :=
  ∀ id, (m'.get? id).map Element.outline = (m.get? id).map Element.outline

namespace SameOutline

variable {m m' m'' : Model}

theorem refl (m : Model) : SameOutline m m := fun _ => rfl

theorem trans (h : SameOutline m m') (h' : SameOutline m' m'') : SameOutline m m'' :=
  fun id => (h' id).trans (h id)

/-- Whatever only depends on the outline of an element is the same in both models. -/
theorem map_get? {α : Type} (h : SameOutline m m') {f : Element → α}
    (outline : ∀ e : Element, f e.outline = f e) (id : ElementId) :
    (m'.get? id).map f = (m.get? id).map f := by
  have key := congrArg (Option.map f) (h id)
  simpa [Option.map_map, Function.comp_def, outline] using key

theorem kind? (h : SameOutline m m') (id : ElementId) : m'.kind? id = m.kind? id :=
  h.map_get? Element.kind_outline id

theorem label (h : SameOutline m m') (id : ElementId) : m'.label id = m.label id :=
  congrArg (Option.getD · "") (h.map_get? (f := Element.label) (fun _ => rfl) id)

theorem members (h : SameOutline m m') (slot : Slot) (id : ElementId) :
    m'.members slot id = m.members slot id :=
  congrArg (Option.getD · []) (h.map_get? (Element.members_outline slot) id)

theorem parent? (h : SameOutline m m') (id : ElementId) : m'.parent? id = m.parent? id := by
  have key := h.map_get? (f := fun e => e.parent) (fun _ => rfl) id
  unfold Model.parent?
  cases hm : m.get? id <;> cases hm' : m'.get? id <;> simp_all

theorem noted? (h : SameOutline m m') (id : ElementId) : m'.noted? id = m.noted? id := by
  have key := h.map_get? (f := fun e => e.body.noted?) (fun e => Body.noted?_outline e.body) id
  unfold Model.noted? body?
  cases hm : m.get? id <;> cases hm' : m'.get? id <;> simp_all

theorem table? (h : SameOutline m m') (slot : Slot) (id : ElementId) :
    m'.table? slot id = m.table? slot id := by
  have key := h.map_get? (f := fun e => e.body.table? slot)
    (fun e => Body.table?_outline slot e.body) id
  unfold Model.table? body?
  cases hm : m.get? id <;> cases hm' : m'.get? id <;> simp_all

theorem noteContents (h : SameOutline m m') (id : ElementId) :
    m'.noteContents id = m.noteContents id := by
  have key := h.map_get? (f := fun e => e.body.noteContents)
    (fun e => Body.noteContents_outline e.body) id
  unfold Model.noteContents body?
  cases hm : m.get? id <;> cases hm' : m'.get? id <;> simp_all

end SameOutline

/-- What a change of one body keeps is the same in every element. -/
theorem map_get?_modifyBody {α : Type} {m : Model} {id : ElementId} {f : Body → Body}
    {read : Element → α} (keeps : ∀ e : Element, read { e with body := f e.body } = read e)
    (other : ElementId) : ((m.modifyBody id f).get? other).map read = (m.get? other).map read := by
  rw [modifyBody, get?_modify]
  split
  · next same =>
    subst same
    cases m.get? other <;> simp [keeps]
  · rfl

/-- A change of bodies that keeps their outline keeps the outline of the model. -/
theorem sameOutline_modifyBody {m : Model} {id : ElementId} {f : Body → Body}
    (keeps : ∀ b, (f b).outline = b.outline) : SameOutline m (m.modifyBody id f) :=
  map_get?_modifyBody fun e => by simp [Element.outline, keeps]

end Model

end Metamodel
