import Metamodel.Document.Construction
import Metamodel.Proofs.Ownership
import Metamodel.Resolution

/-!
Loaded models: those that documents, the standard package and passes of resolution make.

A start of a document appends an element without container or members and then adds it to the
innermost open one, which is older. So loading never closes a loop, whatever the events are and
whether they are accepted or not.

Results:
1. `Element.bare_applyAttributes`: attributes leave the container and the members of an element
   alone.
2. `Construction.handled`: all that an event may come to; `Construction.extended_handle`: what that
   makes of the outline of the model.
3. `Construction.wellFormed_handle`: every event keeps the model well-formed.
4. `Model.Loaded.wellFormed`: loaded models are well-formed.
-/

namespace Metamodel

/-! ## Steps that can fail -/

theorem bind_ok_iff {ε α β : Type} {x : Except ε α} {f : α → Except ε β} {b : β} :
    x >>= f = .ok b ↔ ∃ a, x = .ok a ∧ f a = .ok b := by
  cases x <;> simp [bind, Except.bind]

theorem ok_bind {ε α β : Type} (a : α) (f : α → Except ε β) : (.ok a : Except ε α) >>= f = f a :=
  rfl

theorem map_bind {ε α β γ : Type} (x : Except ε α) (f : α → Except ε β) (g : β → γ) :
    (x >>= f).map g = x >>= fun a => (f a).map g := by
  cases x <;> rfl

/-! ## Attributes -/

namespace Element

/-- An element without its name and without what its body carries besides members and owner. -/
def bare (e : Element) : Element := { e with name := none, body := e.body.outline }

theorem bare_set? {e e' : Element} {p : Property} {value : String}
    (set : e.set? p value = some e') : e'.bare = e.bare := by
  obtain ⟨id, name, parent, annotations, body⟩ := e
  cases p <;> simp only [set?, Option.some.injEq, Option.map_eq_some_iff] at set <;>
    first
    | subst set
      cases body <;> rfl
    | obtain ⟨parsed, -, rfl⟩ := set
      cases body <;> rfl

theorem bare_applyAttribute {e e' : Element} {key value : String}
    (applied : e.applyAttribute key value = .ok e') : e'.bare = e.bare := by
  unfold applyAttribute at applied
  split at applied
  · cases applied
  · split at applied
    · cases applied
    · next set =>
      cases applied
      exact bare_set? set

/-- The element that attributes leave, whether all of them are accepted or not. -/
def afterAttributes (skip : String) (attributes : List (String × String)) (e : Element) : Element :=
  match applyAttributes skip attributes e with
  | .ok e' => e'
  | .error (_, e') => e'

theorem bare_applyAttributes (skip : String) (attributes : List (String × String)) (e : Element) :
    (afterAttributes skip attributes e).bare = e.bare := by
  induction attributes generalizing e with
  | nil => rfl
  | cons entry rest ih =>
    obtain ⟨key, value⟩ := entry
    unfold afterAttributes applyAttributes
    by_cases skipped : key = skip
    · rw [if_pos skipped]
      exact ih e
    · rw [if_neg skipped]
      cases applied : e.applyAttribute key value with
      | ok e' => exact (ih e').trans (bare_applyAttribute applied)
      | error error => rfl

theorem Detached.of_bare {e e' : Element} (same : e'.bare = e.bare) (detached : e.Detached) :
    e'.Detached where
  parent := by
    have key := congrArg Element.parent same
    exact Eq.trans key detached.parent
  members slot := by
    have key : e'.bare.members slot = e.bare.members slot := congrArg (Element.members slot) same
    have outline (e : Element) : e.bare.members slot = e.members slot := by
      simp [Element.members, bare]
    rw [outline, outline] at key
    exact key.trans (detached.members slot)
  noteContents := by
    have key := congrArg (fun e : Element => e.body.noteContents) same
    simp only [bare, Body.noteContents_outline] at key
    exact key.trans detached.noteContents

theorem detached_afterAttributes (skip : String) (attributes : List (String × String))
    (id : ElementId) (kind : Kind) : (afterAttributes skip attributes (blank id kind)).Detached :=
  .of_bare (bare_applyAttributes skip attributes _) (detached_blank id kind none)

end Element

/-! ## Events -/

namespace Model

variable {m : Model}

theorem wellFormed_empty : WellFormed {} where
  toSlotsSound := slotsSound_empty
  toClosed := closed_empty
  acyclic id := .top (by simp [parent?, get?])

theorem wellFormed_append {e : Element} (wf : m.WellFormed) (detached : e.Detached) :
    (m.append e).WellFormed where
  toSlotsSound := slotsSound_append wf.toSlotsSound detached
  toClosed := closed_append wf.toClosed detached
  acyclic := (acyclic_of_parent?_eq (parent?_append detached)).mpr wf.acyclic

section Attach

variable {slot : Slot} {owner member : ElementId} {container content : Element}

/-- Nothing is above the element that was created last. -/
theorem WellFormed.not_onChain_nextId {e : Element} (wf : m.WellFormed) (detached : e.Detached)
    (ne : owner ≠ m.nextId) : ¬ (m.append e).OnChain owner m.nextId := by
  intro chain
  cases chain with
  | self => exact ne rfl
  | up _ next =>
    rw [parent?_append detached] at next
    obtain ⟨e', found⟩ := wf.owner_exists next
    rw [get?_nextId] at found
    exact Option.some_ne_none e' found.symm

theorem wellFormed_attach (wf : m.WellFormed) (held : m.get? owner = some container)
    (there : m.get? member = some content) (ne : owner ≠ member) (on : slot.isOn container.kind)
    (fit : content.kind.isA slot.memberClass) (free : content.parent = none)
    (newName : container.hasMemberNamed slot content.label = false)
    (apart : ¬ m.OnChain owner member) : (m.attach slot owner member).WellFormed where
  toSlotsSound := slotsSound_attach wf.toSlotsSound held there ne on fit free newName
  toClosed := closed_attach wf.toClosed held there ne
  acyclic := (acyclic_attach_iff held there ne free).mpr ⟨wf.acyclic, apart⟩

/-- Adding an element that was just created keeps a model well-formed. -/
theorem wellFormed_add_new {e : Element} {m' : Model} (wf : m.WellFormed) (detached : e.Detached)
    (added : (m.append e).add slot owner m.nextId = .ok m') : m'.WellFormed := by
  obtain ⟨container, content, held, there, on, fit, ne, free, newName, rfl⟩ := add_ok_iff.mp added
  exact wellFormed_attach (wellFormed_append wf detached) held there ne on fit free newName
    (wf.not_onChain_nextId detached ne)

end Attach

theorem sameOutline_addDetail {m' : Model} {note : ElementId} {key value : String}
    (added : m.addDetail note key value = .ok m') : SameOutline m m' := by
  unfold addDetail require demand at added
  cases found : m.get? note with
  | none => simp [found, bind, Except.bind] at added
  | some e =>
    by_cases isNote : e.kind = .eNote
    · simp [found, isNote, bind, Except.bind, pure, Except.pure] at added
      subst added
      exact sameOutline_modifyBody fun b => by cases b <;> rfl
    · simp [found, isNote, bind, Except.bind] at added

/-- What an event may make of a model: it leaves the outline, or creates an element, which it may
also put into a slot. -/
inductive Extended (m : Model) : Model → Prop
  | same {n : Model} : SameOutline m n → Extended m n
  | created {e : Element} : e.Detached → Extended m (m.append e)
  | contained {e : Element} {slot : Slot} {owner : ElementId} {n : Model} :
      e.Detached → (m.append e).add slot owner m.nextId = .ok n → Extended m n

theorem Extended.wellFormed {n : Model} (extended : m.Extended n) (wf : m.WellFormed) :
    n.WellFormed := by
  cases extended with
  | same outline => exact outline.wellFormed wf
  | created detached => exact wellFormed_append wf detached
  | contained detached added => exact wellFormed_add_new wf detached added

end Model

namespace Construction

/-- What an event leaves, whether it is accepted or not. -/
def after : Except (Error × Construction) Construction → Construction
  | .ok c => c
  | .error (_, c) => c

variable {c : Construction} {discriminator : String}

/-- The element that a start creates, as its attributes leave it. -/
def newElement (c : Construction) (discriminator : String) (attributes : OrderedMap String)
    (kind : Kind) : Element :=
  Element.afterAttributes discriminator attributes.entries (.blank c.model.nextId kind)

theorem detached_newElement (attributes : OrderedMap String) (kind : Kind) :
    (c.newElement discriminator attributes kind).Detached :=
  Element.detached_afterAttributes discriminator attributes.entries c.model.nextId kind

/-- All that an event may come to. A start that is refused may have created its element. -/
inductive Handled (c : Construction) (discriminator : String) :
    Except (Error × Construction) Construction → Prop
  | unchanged {error : Error} : Handled c discriminator (.error (error, c))
  | closed {frames : List Frame} {root : Option ElementId} :
      Handled c discriminator (.ok { c with frames, root })
  | detailed {note : ElementId} {key value : String} {model : Model} {frames : List Frame} :
      c.model.addDetail note key value = .ok model →
      Handled c discriminator (.ok { c with model, frames })
  | rejected {attributes : OrderedMap String} {kind : Kind} {error : Error} :
      Handled c discriminator
        (.error (error, { c with model := c.model.append (c.newElement discriminator attributes kind) }))
  | outermost {attributes : OrderedMap String} {kind : Kind} {frames : List Frame} :
      Handled c discriminator
        (.ok { c with model := c.model.append (c.newElement discriminator attributes kind), frames })
  | inside {attributes : OrderedMap String} {kind : Kind} {slot : Slot} {owner : ElementId}
      {model : Model} {frames : List Frame} :
      (c.model.append (c.newElement discriminator attributes kind)).add slot owner c.model.nextId =
        .ok model →
      Handled c discriminator (.ok { c with model, frames })

theorem handled_openElement (attributes : OrderedMap String) (parent : Option ElementId)
    (kind : Kind) (slot : Option Slot) :
    c.Handled discriminator (c.openElement discriminator attributes parent kind slot) := by
  unfold openElement
  dsimp only
  split
  · next error e applied =>
    obtain rfl : c.newElement discriminator attributes kind = e := by
      rw [newElement, Element.afterAttributes, applied]
    exact .rejected
  · next e applied =>
    obtain rfl : c.newElement discriminator attributes kind = e := by
      rw [newElement, Element.afterAttributes, applied]
    split
    · split
      · exact .rejected
      · next added => exact .inside added
    · exact .outermost

theorem handled_openDetail {c' : Construction} {attributes : OrderedMap String}
    {parent : Option ElementId} (opened : c.openDetail attributes parent = .ok c') :
    c.Handled discriminator (.ok c') := by
  unfold openDetail at opened
  cases parent with
  | none => cases opened
  | some note =>
    obtain ⟨⟨key, value⟩, -, opened⟩ := bind_ok_iff.mp opened
    obtain ⟨model, added, opened⟩ := bind_ok_iff.mp opened
    cases opened
    exact .detailed added

theorem handled (c : Construction) (discriminator : String) (event : Event) :
    c.Handled discriminator (c.handle discriminator event) := by
  cases event with
  | closing =>
    simp only [handle, handleClosing]
    split
    · exact .unchanged
    · exact .closed
    · exact .closed
  | opening tag attributes =>
    simp only [handle, handleOpening]
    split
    · exact .unchanged
    · split
      · exact .unchanged
      · split
        · unfold failing
          split
          · next opened => exact handled_openDetail opened
          · exact .unchanged
        · split
          · exact .unchanged
          · exact handled_openElement attributes _ _ _

/-- All that an event may do to the outline of a model, accepted or not. -/
theorem extended_handle (discriminator : String) (event : Event) :
    c.model.Extended (after (c.handle discriminator event)).model := by
  have result := c.handled discriminator event
  generalize c.handle discriminator event = outcome at result ⊢
  cases result with
  | unchanged => exact .same (.refl c.model)
  | closed => exact .same (.refl c.model)
  | detailed added => exact .same (Model.sameOutline_addDetail added)
  | rejected => exact .created (detached_newElement _ _)
  | outermost => exact .created (detached_newElement _ _)
  | inside added => exact .contained (detached_newElement _ _) added

/-- No event makes a well-formed model ill-formed, accepted or not. -/
theorem wellFormed_handle (wf : c.model.WellFormed) (discriminator : String) (event : Event) :
    (after (c.handle discriminator event)).model.WellFormed :=
  (extended_handle discriminator event).wellFormed wf

/-- What every event keeps is kept by any number of them, up to the first that is refused. -/
theorem after_foldlM {P : Model → Prop}
    (keeps : ∀ (c : Construction) (event : Event), P c.model →
      P (after (c.handle discriminator event)).model)
    (start : P c.model) (events : List Event) :
    P (after (events.foldlM (handle discriminator) c)).model := by
  -- An event that is refused ends the run, but what it leaves is one more step.
  induction events generalizing c with
  | nil => exact start
  | cons event rest ih =>
    have step := keeps c event start
    rw [List.foldlM_cons]
    cases handled : c.handle discriminator event with
    | error failure =>
      rw [handled] at step
      exact step
    | ok next =>
      rw [handled] at step
      exact ih step

theorem keeps_after_foldlM {P : Model → Prop} (keeps : ∀ {m n : Model}, m.Extended n → P m → P n)
    {c : Construction} (start : P c.model) (discriminator : String) (events : List Event) :
    P (after (events.foldlM (handle discriminator) c)).model :=
  after_foldlM (fun _ event held => keeps (extended_handle discriminator event) held) start events

theorem keeps_foldlM {P : Model → Prop} (keeps : ∀ {m n : Model}, m.Extended n → P m → P n)
    {c c' : Construction} (start : P c.model) {discriminator : String} {events : List Event}
    (accepted : events.foldlM (handle discriminator) c = .ok c') : P c'.model := by
  have kept := keeps_after_foldlM keeps start discriminator events
  rwa [accepted] at kept

end Construction

/-! ## The standard package -/

namespace Model

section CreateIn

variable {m : Model} {slot : Slot} {owner : ElementId} {kind ownerKind : Kind} {name : String}

theorem table?_of_get? {id : ElementId} {e : Element} (found : m.get? id = some e) (slot : Slot) :
    m.table? slot id = e.body.table? slot := by
  simp [table?, body?, found]

/-- An element that is created in a slot is attached to the model that has it. -/
theorem exists_createIn (m : Model) (kind : Kind) (name : String)
    (known : m.kind? owner = some ownerKind) :
    ∃ container content,
      (m.create kind (some name)).get? owner = some container ∧
      (m.create kind (some name)).get? m.nextId = some content ∧
      m.get? owner = some container ∧ container.kind = ownerKind ∧ content.kind = kind ∧
      content.parent = none ∧ content.label = name ∧ owner ≠ m.nextId := by
  obtain ⟨container, found, same⟩ := get?_of_kind? known
  have old : owner ≠ m.nextId := by
    rintro rfl
    rw [get?_nextId] at found
    exact Option.some_ne_none container found.symm
  refine ⟨container, { Element.blank m.nextId kind with name := some name }, ?_, ?_, found, same,
    Body.kind_blank kind, rfl, rfl, old⟩
  · rw [create, get?_append, if_neg old]
    exact found
  · rw [create, get?_append, if_pos rfl]

theorem wellFormed_createIn (wf : m.WellFormed) (known : m.kind? owner = some ownerKind)
    (on : slot.isOn ownerKind) (fit : kind.isA slot.memberClass)
    (new : (m.table? slot owner).any (·.contains name) = false) :
    (m.createIn slot owner kind name).WellFormed := by
  obtain ⟨container, content, held, there, found, rfl, rfl, free, label, ne⟩ :=
    exists_createIn m kind name known
  have detached := Element.detached_blank m.nextId content.kind (some name)
  refine wellFormed_attach (wellFormed_append wf detached) held there ne on fit free ?_
    (wf.not_onChain_nextId detached ne)
  rw [table?_of_get? found] at new
  simpa [Element.hasMemberNamed, Body.table?, label] using new

theorem kind?_createIn (known : m.kind? owner = some ownerKind) :
    (m.createIn slot owner kind name).kind? owner = some ownerKind := by
  obtain ⟨container, content, held, there, found, rfl, -, -, -, ne⟩ :=
    exists_createIn m kind name known
  rw [createIn, kind?_attach held there ne, kind?_of_get? held]

theorem kind?_createIn_new (known : m.kind? owner = some ownerKind) :
    (m.createIn slot owner kind name).kind? m.nextId = some kind := by
  obtain ⟨container, content, held, there, -, -, rfl, -, -, ne⟩ :=
    exists_createIn m kind name known
  rw [createIn, kind?_attach held there ne, kind?_of_get? there]

theorem table?_createIn (known : m.kind? owner = some ownerKind) (other : Slot) :
    (m.createIn slot owner kind name).table? other owner =
      if other = slot then (m.table? slot owner).map (·.insert name m.nextId)
      else m.table? other owner := by
  obtain ⟨container, content, held, there, found, -, -, -, label, ne⟩ :=
    exists_createIn m kind name known
  rw [createIn, table?_attach held there ne, label, table?_of_get? held, table?_of_get? held,
    table?_of_get? found, table?_of_get? found]
  by_cases same : other = slot <;> simp [same]

/-- Of the members by name only the new one has the new name. -/
theorem missing_createIn (known : m.kind? owner = some ownerKind) {other : String}
    (ne : other ≠ name) (missing : (m.table? slot owner).any (·.contains other) = false) :
    ((m.createIn slot owner kind name).table? slot owner).any (·.contains other) = false := by
  rw [table?_createIn known, if_pos rfl]
  cases held : m.table? slot owner with
  | none => rfl
  | some t => simpa [held, OrderedMap.contains, OrderedMap.get?_insert, ne] using missing

/-- Creating several members of one owner, each edited without a change of its outline. -/
theorem wellFormed_foldl_createIn {α : Type} (slot : Slot) (kind : Kind) (label : α → String)
    (edit : α → Body → Body) (keeps : ∀ a b, (edit a b).outline = b.outline) (items : List α)
    (distinct : (items.map label).Nodup) (wf : m.WellFormed)
    (known : m.kind? owner = some ownerKind) (on : slot.isOn ownerKind)
    (fit : kind.isA slot.memberClass)
    (new : ∀ a ∈ items, (m.table? slot owner).any (·.contains (label a)) = false) {m' : Model}
    (made : m' = items.foldl
      (fun m a => (m.createIn slot owner kind (label a)).modifyBody m.nextId (edit a)) m) :
    m'.WellFormed ∧ m'.kind? owner = some ownerKind ∧
      ∀ other, other ≠ slot → m'.table? other owner = m.table? other owner := by
  induction items generalizing m with
  | nil =>
    subst made
    exact ⟨wf, known, fun _ _ => rfl⟩
  | cons a rest ih =>
    rw [List.map_cons, List.nodup_cons] at distinct
    have same : SameOutline (m.createIn slot owner kind (label a))
        ((m.createIn slot owner kind (label a)).modifyBody m.nextId (edit a)) :=
      sameOutline_modifyBody (keeps a)
    have next := ih distinct.2
      (same.wellFormed (wellFormed_createIn wf known on fit (new a List.mem_cons_self)))
      ((same.kind? owner).trans (kind?_createIn known)) ?stillNew made
    case stillNew =>
      intro b member
      have ne : label b ≠ label a := by
        intro clash
        exact distinct.1 (clash ▸ List.mem_map_of_mem member)
      rw [same.table?]
      exact missing_createIn known ne (new b (List.mem_cons_of_mem a member))
    refine ⟨next.1, next.2.1, fun other apart => ?_⟩
    rw [next.2.2 other apart, same.table?, table?_createIn known, if_neg apart]

end CreateIn

theorem wellFormed_addStandardPackage {m : Model} (wf : m.WellFormed) :
    m.addStandardPackage.WellFormed := by
  unfold addStandardPackage
  extract_lets package withTypes withObject entry withEntry stringType
  have started : SameOutline (m.create .ePackage (some Standard.nsPrefix))
      ((m.create .ePackage (some Standard.nsPrefix)).modifyBody package
        (Body.mapPackage fun p =>
          { p with
            nsUri := some Standard.nsUri
            nsPrefix := some Standard.nsPrefix
            resolved := true })) :=
    sameOutline_modifyBody fun b => by cases b <;> rfl
  have there : (m.create .ePackage (some Standard.nsPrefix)).get? package =
      some { Element.blank package .ePackage with name := some Standard.nsPrefix } := by
    rw [create, get?_append, if_pos rfl]
  have empty {first : Model}
      (same : SameOutline (m.create .ePackage (some Standard.nsPrefix)) first) {slot : Slot}
      (own : slot = .classes ∨ slot = .dataTypes) (name : String) :
      (first.table? slot package).any (·.contains name) = false := by
    rw [same.table?, table?_of_get? there]
    rcases own with rfl | rfl <;> rfl
  obtain ⟨wfTypes, knownTypes, tableTypes⟩ :=
    wellFormed_foldl_createIn .dataTypes .eDataType Prod.fst
      (fun entry => Body.mapClassifier fun c => { c with instanceClassName := some entry.2 })
      (fun entry b => by cases b <;> rfl) Standard.dataTypes (by decide)
      (started.wellFormed (wellFormed_append wf (Element.detached_blank _ _ _)))
      ((started.kind? package).trans (kind?_of_get? there)) rfl (by decide)
      (fun entry _ => empty started (.inr rfl) entry.1) rfl
  have noClasses (name : String) :
      (withTypes.table? .classes package).any (·.contains name) = false := by
    rw [tableTypes .classes (by decide)]
    exact empty started (.inl rfl) name
  have wfObject : withObject.WellFormed :=
    wellFormed_createIn wfTypes knownTypes rfl (by decide) (noClasses _)
  have knownObject : withObject.kind? package = some .ePackage := kind?_createIn knownTypes
  have entryNew : (withObject.table? .classes package).any
      (·.contains Standard.mapEntryClass) = false :=
    missing_createIn knownTypes (by decide) (noClasses _)
  have edited : SameOutline (withObject.createIn .classes package .eClass Standard.mapEntryClass)
      withEntry := sameOutline_modifyBody fun b => by cases b <;> rfl
  have wfEntry : withEntry.WellFormed :=
    edited.wellFormed (wellFormed_createIn wfObject knownObject rfl (by decide) entryNew)
  have knownEntry : withEntry.kind? entry = some .eClass :=
    (edited.kind? entry).trans (kind?_createIn_new knownObject)
  -- Only the outline counts, so the links of the last members may be anything.
  clear_value stringType
  refine (wellFormed_foldl_createIn .attributes .eAttribute (fun name => name)
    (fun _ => Body.mapTyped fun t => { t with eType := stringType.map .resolved })
    (fun name b => by cases b <;> rfl) ["key", "value"] (by decide) wfEntry knownEntry rfl
    (by decide) ?_ rfl).1
  intro name _
  obtain ⟨e, found, isClass⟩ := get?_of_kind? knownEntry
  rw [table?_of_get? found]
  cases h : e.body <;> simp_all [Element.kind, Body.kind, Body.table?, Body.package?]

/-! ## Resolution -/

theorem sameOutline_applyPatch (m : Model) (p : Patch) : SameOutline m (m.applyPatch p) :=
  sameOutline_modifyBody fun b => by
    cases h : p.field <;> cases b <;> rfl

theorem sameOutline_markResolved (m : Model) (package : ElementId) :
    SameOutline m (m.markResolved package) :=
  sameOutline_modifyBody fun b => by cases b <;> rfl

/-- Steps that each keep the outline of a model keep it together. -/
theorem sameOutline_foldl {α : Type} {f : Model → α → Model} (step : ∀ m a, SameOutline m (f m a))
    (l : List α) (m : Model) : SameOutline m (l.foldl f m) := by
  induction l generalizing m with
  | nil => exact SameOutline.refl m
  | cons a l ih => exact (step m a).trans (ih (f m a))

/-- What a successful pass of resolution consists of. -/
theorem resolve_ok_iff {m m' : Model} {root : ElementId} {peers : List ElementId}
    {count : ResolutionCount} :
    m.resolve root peers = .ok (m', count) ↔
      m.kind? root = some .ePackage ∧ ∃ pass, m.planResolution root peers = .ok pass ∧
        m' = (m.packageTree root).foldl markResolved (pass.patches.foldl applyPatch m) ∧
        count = ⟨pass.patches.length, pass.alreadyResolved⟩ := by
  unfold resolve require demand kind?
  cases found : m.get? root with
  | none => simp [bind, Except.bind]
  | some e =>
    by_cases isPackage : e.kind = .ePackage
    · cases planned : m.planResolution root peers with
      | error error => simp [isPackage, bind, Except.bind]
      | ok pass =>
        simp [isPackage, bind, Except.bind, pure, Except.pure, eq_comm]
    · simp [isPackage, bind, Except.bind]

theorem sameOutline_resolve {m m' : Model} {root : ElementId} {peers : List ElementId}
    {count : ResolutionCount} (resolved : m.resolve root peers = .ok (m', count)) :
    SameOutline m m' := by
  obtain ⟨-, pass, -, rfl, -⟩ := resolve_ok_iff.mp resolved
  exact (sameOutline_foldl sameOutline_applyPatch pass.patches m).trans
    (sameOutline_foldl sameOutline_markResolved (m.packageTree root) _)

/-! ## Loaded models -/

/-- Models made by documents, by the standard package and by passes of resolution. -/
inductive Loaded : Model → Prop
  | empty : Loaded {}
  | document {m m' : Model} {root : ElementId} {discriminator : String} {events : List Event} :
      Loaded m → m.build discriminator events none = .ok (m', root) → Loaded m'
  | standard {m : Model} : Loaded m → Loaded m.addStandardPackage
  | resolved {m m' : Model} {root : ElementId} {peers : List ElementId} {count : ResolutionCount} :
      Loaded m → m.resolve root peers = .ok (m', count) → Loaded m'

theorem build_ok_iff {m m' : Model} {root : ElementId} {discriminator : String}
    {events : List Event} {fault : Option Error} :
    m.build discriminator events fault = .ok (m', root) ↔
      fault = none ∧ ∃ c : Construction,
        events.foldlM (Construction.handle discriminator) { model := m } = .ok c ∧
        c.frames = [] ∧ c.root = some root ∧ m' = c.model := by
  unfold build Construction.finish
  cases events.foldlM (Construction.handle discriminator) { model := m } with
  | error failure => simp
  | ok c =>
    cases fault with
    | some error => simp
    | none =>
      cases frames : c.frames with
      | cons frame outer => simp [frames]
      | nil => cases closed : c.root <;> simp [frames, closed, and_comm, eq_comm]

theorem wellFormed_build {m m' : Model} {root : ElementId} {discriminator : String}
    {events : List Event} {fault : Option Error} (wf : m.WellFormed)
    (built : m.build discriminator events fault = .ok (m', root)) : m'.WellFormed := by
  obtain ⟨-, c, accepted, -, -, rfl⟩ := build_ok_iff.mp built
  exact Construction.keeps_foldlM Extended.wellFormed wf accepted

theorem Loaded.wellFormed {m : Model} (loaded : m.Loaded) : m.WellFormed := by
  induction loaded with
  | empty => exact wellFormed_empty
  | document _ built ih => exact wellFormed_build ih built
  | standard _ ih => exact wellFormed_addStandardPackage ih
  | resolved _ resolved ih => exact (sameOutline_resolve resolved).wellFormed ih

end Model

end Metamodel
