import Metamodel.Proofs.Loaded

/-!
What an accepted event does to a construction.

Results:
1. `Construction.accepts_of_handle`: an accepted event opens the root package, a member of the
   innermost open element or a detail of it, or closes what was opened last.
2. `Construction.Sound.handle`: the open elements stay elements of the model.
-/

namespace Metamodel

namespace Construction

/-- The ways in which an event is accepted. -/
inductive Accepts (discriminator : String) (c : Construction) : Event → Construction → Prop
  | package {attributes : OrderedMap String} {e : Element} :
      c.root = none → c.frames = [] →
      Element.applyAttributes discriminator attributes.entries
        (.blank c.model.nextId .ePackage) = .ok e →
      Accepts discriminator c (.opening "EPackage" attributes)
        { c with model := c.model.append e, frames := [.element c.model.nextId] }
  | member {tag : String} {attributes : OrderedMap String} {meaning : TagMeaning}
      {owner : ElementId} {outer : List Frame} {e : Element} {model : Model} :
      tag ≠ "details" → c.root = none → c.frames = .element owner :: outer →
      TagMeaning.of discriminator tag attributes = .ok (some meaning) →
      Element.applyAttributes discriminator attributes.entries
        (.blank c.model.nextId meaning.kind) = .ok e →
      (c.model.append e).add meaning.slot owner c.model.nextId = .ok model →
      Accepts discriminator c (.opening tag attributes)
        { c with model, frames := .element c.model.nextId :: c.frames }
  | detail {attributes : OrderedMap String} {note : ElementId} {outer : List Frame}
      {key value : String} {model : Model} :
      c.root = none → c.frames = .element note :: outer →
      c.model.addDetail note key value = .ok model →
      Accepts discriminator c (.opening "details" attributes)
        { c with model, frames := .details :: c.frames }
  | close {frame : Frame} {outer : List Frame} :
      c.frames = frame :: outer → (outer ≠ [] ∨ frame = .details) →
      Accepts discriminator c .closing { c with frames := outer }
  | closeRoot {id : ElementId} :
      c.frames = [.element id] →
      Accepts discriminator c .closing { c with frames := [], root := some id }

variable {discriminator : String} {c c' : Construction}

theorem accepts_of_handleClosing (closed : c.handleClosing = .ok c') :
    c.Accepts discriminator .closing c' := by
  unfold handleClosing at closed
  split at closed
  · cases closed
  · next only =>
    cases closed
    exact .closeRoot only
  · next frame outer other frames =>
    cases closed
    refine .close frames ?_
    cases frame with
    | details => exact .inr rfl
    | element id =>
      refine .inl fun last => ?_
      subst last
      exact other id rfl rfl

theorem openDetail_ok_iff {attributes : OrderedMap String} {parent : Option ElementId} :
    c.openDetail attributes parent = .ok c' ↔
      ∃ note key value model, parent = some note ∧ detail attributes = .ok (key, value) ∧
        c.model.addDetail note key value = .ok model ∧
        c' = { c with model, frames := .details :: c.frames } := by
  unfold openDetail
  cases parent with
  | none => simp
  | some note =>
    simp only [bind_ok_iff, Prod.exists, pure, Except.pure, Except.ok.injEq, Option.some.injEq]
    constructor
    · rintro ⟨key, value, read, model, added, rfl⟩
      exact ⟨note, key, value, model, rfl, read, added, rfl⟩
    · rintro ⟨_, key, value, model, rfl, read, added, rfl⟩
      exact ⟨key, value, read, model, added, rfl⟩

theorem meaning_ok_iff {tag : String} {attributes : OrderedMap String} {parent : Option ElementId}
    {kind : Kind} {slot : Option Slot} :
    c.meaning discriminator tag attributes parent = .ok (kind, slot) ↔
      (tag = "EPackage" ∧ parent = none ∧ kind = .ePackage ∧ slot = none) ∨
        (parent ≠ none ∧ ∃ meaning,
          TagMeaning.of discriminator tag attributes = .ok (some meaning) ∧
          kind = meaning.kind ∧ slot = some meaning.slot) := by
  unfold meaning
  by_cases outermost : tag = "EPackage" ∧ parent = none
  · obtain ⟨rfl, rfl⟩ := outermost
    simp [pure, Except.pure, eq_comm]
  · have inner : (decide (tag = "EPackage") && parent.isNone) = false := by
      cases parent <;> simp_all
    simp only [inner, Bool.false_eq_true, if_false, bind_ok_iff]
    constructor
    · rintro ⟨none | meaning, known, rest⟩
      · cases rest
      · cases parent with
        | none => cases rest
        | some owner =>
          cases rest
          exact .inr ⟨Option.some_ne_none owner, meaning, known, rfl, rfl⟩
    · rintro (⟨isPackage, isRoot, -, -⟩ | ⟨isMember, meaning, known, rfl, rfl⟩)
      · exact absurd ⟨isPackage, isRoot⟩ outermost
      · refine ⟨some meaning, known, ?_⟩
        cases parent with
        | none => exact absurd rfl isMember
        | some owner => rfl

/-- Opening an element appends it and adds it to its parent. -/
theorem openElement_ok_iff {attributes : OrderedMap String} {parent : Option ElementId}
    {kind : Kind} {slot : Option Slot} :
    c.openElement discriminator attributes parent kind slot = .ok c' ↔
      ∃ e model, Element.applyAttributes discriminator attributes.entries
          (.blank c.model.nextId kind) = .ok e ∧
        c' = { c with model, frames := .element c.model.nextId :: c.frames } ∧
        match parent, slot with
        | some owner, some slot => (c.model.append e).add slot owner c.model.nextId = .ok model
        | _, _ => model = c.model.append e := by
  cases applied : Element.applyAttributes discriminator attributes.entries
      (.blank c.model.nextId kind) with
  | error failure => simp [openElement, applied]
  | ok e =>
    cases parent with
    | none => simp [openElement, applied, eq_comm]
    | some owner =>
      cases slot with
      | none => simp [openElement, applied, eq_comm]
      | some slot =>
        cases added : (c.model.append e).add slot owner c.model.nextId with
        | error error => simp [openElement, applied, added]
        | ok model => simp [openElement, applied, added, eq_comm]

/-- The element into which the next start goes. -/
def innermost? (c : Construction) : Option ElementId :=
  match c.frames with
  | .element id :: _ => some id
  | _ => none

theorem handleOpening_eq (noRoot : c.root = none) (inElement : c.frames.head? ≠ some .details)
    (tag : String) (attributes : OrderedMap String) :
    c.handleOpening discriminator tag attributes =
      if tag = "details" then c.failing (c.openDetail attributes c.innermost?)
      else
        match c.meaning discriminator tag attributes c.innermost? with
        | .error error => .error (error, c)
        | .ok (kind, slot) =>
          c.openElement discriminator attributes c.innermost? kind slot := by
  unfold handleOpening innermost?
  rw [noRoot]
  cases frames : c.frames with
  | nil => rfl
  | cons frame outer =>
    cases frame with
    | element id => rfl
    | details => exact absurd (by rw [frames]; rfl) inElement

theorem ready_of_handleOpening {tag : String} {attributes : OrderedMap String}
    (opened : c.handleOpening discriminator tag attributes = .ok c') :
    c.root = none ∧ c.frames.head? ≠ some .details := by
  unfold handleOpening at opened
  split at opened
  · cases opened
  · next noRoot =>
    split at opened
    · cases opened
    · next inElement =>
      refine ⟨by simpa using noRoot, fun top => ?_⟩
      obtain ⟨outer, frames⟩ := List.head?_eq_some_iff.mp top
      exact inElement outer frames

theorem frames_of_innermost? {id : ElementId} (inner : c.innermost? = some id) :
    ∃ outer, c.frames = .element id :: outer := by
  unfold innermost? at inner
  split at inner
  · next outer frames =>
    cases inner
    exact ⟨outer, frames⟩
  · cases inner

theorem frames_eq_nil (inElement : c.frames.head? ≠ some .details)
    (outermost : c.innermost? = none) : c.frames = [] := by
  unfold innermost? at outermost
  cases frames : c.frames with
  | nil => rfl
  | cons frame outer =>
    rw [frames] at inElement outermost
    cases frame with
    | element id => cases outermost
    | details => exact absurd rfl inElement

theorem accepts_of_handleOpening {tag : String} {attributes : OrderedMap String}
    (opened : c.handleOpening discriminator tag attributes = .ok c') :
    c.Accepts discriminator (.opening tag attributes) c' := by
  obtain ⟨noRoot, inElement⟩ := ready_of_handleOpening opened
  rw [handleOpening_eq noRoot inElement] at opened
  split at opened
  · next isDetail =>
    subst isDetail
    cases done : c.openDetail attributes c.innermost? with
    | error error => simp [done, failing] at opened
    | ok next =>
      simp only [done, failing, Except.ok.injEq] at opened
      subst opened
      obtain ⟨note, key, value, model, inner, -, added, rfl⟩ := openDetail_ok_iff.mp done
      obtain ⟨outer, frames⟩ := frames_of_innermost? inner
      exact .detail noRoot frames added
  · next notDetail =>
    split at opened
    · cases opened
    · next kind slot meant =>
      obtain ⟨e, model, applied, rfl, added⟩ := openElement_ok_iff.mp opened
      rcases meaning_ok_iff.mp meant with
        ⟨rfl, outermost, rfl, rfl⟩ | ⟨isMember, meaning, known, rfl, rfl⟩
      · have frames := frames_eq_nil inElement outermost
        rw [outermost] at added
        subst added
        rw [frames]
        exact .package noRoot frames applied
      · obtain ⟨owner, inner⟩ := Option.ne_none_iff_exists'.mp isMember
        obtain ⟨outer, frames⟩ := frames_of_innermost? inner
        rw [inner] at added
        exact .member notDetail noRoot frames known applied added

theorem accepts_of_handle {event : Event} (accepted : c.handle discriminator event = .ok c') :
    c.Accepts discriminator event c' := by
  cases event with
  | opening tag attributes => exact accepts_of_handleOpening accepted
  | closing => exact accepts_of_handleClosing accepted

/-! ## Open elements -/

/-- The model is well-formed and has the open elements. -/
structure Sound (c : Construction) : Prop where
  wellFormed : c.model.WellFormed
  opened : ∀ id, .element id ∈ c.frames → id.index < c.model.size

theorem size_of_add {m m' : Model} {slot : Slot} {owner member : ElementId}
    (added : m.add slot owner member = .ok m') : m'.size = m.size := by
  obtain ⟨container, content, -, -, -, -, -, -, -, rfl⟩ := Model.add_ok_iff.mp added
  simp [Model.attach]

theorem addDetail_ok_iff {m m' : Model} {note : ElementId} {key value : String} :
    m.addDetail note key value = .ok m' ↔
      m.kind? note = some .eNote ∧
        m' = m.modifyBody note
          (Body.mapNote fun a => { a with details := a.details.insert key value }) := by
  unfold Model.addDetail Model.require Model.demand Model.kind?
  cases m.get? note with
  | none => simp [bind, Except.bind]
  | some e =>
    by_cases isNote : e.kind = .eNote <;>
      simp [isNote, bind, Except.bind, pure, Except.pure, eq_comm (a := m')]

theorem Sound.accepts (sound : c.Sound) {event : Event}
    (wf : c'.model.WellFormed) (accepted : c.Accepts discriminator event c') : c'.Sound := by
  refine ⟨wf, fun id there => ?_⟩
  cases accepted with
  | package noRoot frames applied =>
    cases List.mem_singleton.mp there
    simp [Model.nextId]
  | @member _ _ _ _ _ _ model notDetail noRoot frames known applied added =>
    have size := size_of_add added
    rw [Model.size_append] at size
    rcases List.mem_cons.mp there with same | before
    · cases same
      simp [Model.nextId, size]
    · have old := sound.opened id before
      change id.index < model.size
      omega
  | detail noRoot frames added =>
    obtain ⟨-, rfl⟩ := addDetail_ok_iff.mp added
    rcases List.mem_cons.mp there with same | before
    · cases same
    · simpa [Model.modifyBody] using sound.opened id before
  | close frames inner =>
    exact sound.opened id (frames ▸ List.mem_cons_of_mem _ there)
  | closeRoot frames => cases there

theorem Sound.handle (sound : c.Sound) {event : Event}
    (accepted : c.handle discriminator event = .ok c') : c'.Sound := by
  have wf := wellFormed_handle sound.wellFormed discriminator event
  rw [accepted] at wf
  exact sound.accepts wf (accepts_of_handle accepted)

end Construction

end Metamodel
