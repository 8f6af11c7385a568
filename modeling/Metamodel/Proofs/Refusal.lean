import Metamodel.Proofs.Acceptance

/-!
What a refused event leaves.

A start can be refused before its element is created or after that: for an attribute that its kind
does not have or that has no valid value, or for want of a place in the innermost open element. By
then the element is in the model. It stays there without a container, and nothing else has changed.

The new element stands in no slot only because no slot held its id beforehand, and that is what has
to be carried along from event to event (`Populated`).

Results:
1. `refused_cases`: all that a refused event does.
2. `Reachable.populated`: whatever the events were, slots hold elements of the model.
3. `handle_outcome`: a refused event leaves the open elements, the root and all elements, and an
   accepted one opens or closes one element.
-/

namespace Metamodel

namespace Model

variable {m n : Model}

/-- What stands in a slot is an element of the model. -/
def Populated (m : Model) : Prop := ∀ slot p, ∀ c ∈ m.members slot p, ∃ e, m.get? c = some e

theorem SlotsSound.populated (sound : m.SlotsSound) : m.Populated := by
  intro slot p c held
  exact exists_of_parent? (sound.parent held)

theorem Populated.not_mem_members (populated : m.Populated) {id : ElementId}
    (missing : m.get? id = none) (slot : Slot) (p : ElementId) : id ∉ m.members slot p := by
  intro held
  obtain ⟨e, found⟩ := populated slot p id held
  rw [missing] at found
  cases found

theorem SameOutline.populated (same : SameOutline m n) (populated : m.Populated) :
    n.Populated := by
  intro slot p c held
  rw [same.members] at held
  exact same.exists_get?.mpr (populated slot p c held)

theorem populated_append {e : Element} (populated : m.Populated) (detached : e.Detached) :
    (m.append e).Populated := by
  intro slot p c held
  rw [members_append detached] at held
  rw [get?_append]
  split
  · exact ⟨e, rfl⟩
  · exact populated slot p c held

theorem populated_add {slot : Slot} {owner member : ElementId} (populated : m.Populated)
    (added : m.add slot owner member = .ok n) : n.Populated := by
  obtain ⟨container, content, held, there, on, -, ne, -, newName, rfl⟩ := add_ok_iff.mp added
  intro other p c inSlot
  rw [get?_attach held there ne]
  split
  · exact ⟨_, rfl⟩
  · next notMember =>
    split
    · exact ⟨_, rfl⟩
    · rcases (mem_members_attach held there ne on newName).mp inSlot with ⟨-, -, isMember⟩ | ⟨old, -⟩
      · exact absurd isMember notMember
      · exact populated other p c old

theorem Extended.populated (extended : m.Extended n) (populated : m.Populated) : n.Populated := by
  cases extended with
  | same outline => exact outline.populated populated
  | created detached => exact populated_append populated detached
  | contained detached added => exact populated_add (populated_append populated detached) added

end Model

namespace Construction

/-- The constructions that events lead to, accepted or not, over a model that is given. Whatever
additions and documents have made of it, it is populated (`SlotsSound.populated`). -/
inductive Reachable (discriminator : String) : Construction → Prop
  | start {m : Model} : m.Populated → Reachable discriminator { model := m }
  | event {c : Construction} (event : Event) : Reachable discriminator c →
      Reachable discriminator (after (c.handle discriminator event))

variable {discriminator : String} {c c' : Construction} {error : Error}

theorem Reachable.populated (reachable : c.Reachable discriminator) : c.model.Populated := by
  induction reachable with
  | start populated => exact populated
  | event event _ ih => exact (extended_handle discriminator event).populated ih

theorem Reachable.foldl (events : List Event) (reachable : c.Reachable discriminator) :
    (events.foldl (fun c event => after (c.handle discriminator event)) c).Reachable
      discriminator := by
  induction events generalizing c with
  | nil => exact reachable
  | cons event rest ih => exact ih (.event event reachable)

/-- What a refused event leaves: the open elements, the root and every element as they were, and at
most one more element, without a container and in no slot. -/
structure Refused (c c' : Construction) : Prop where
  frames : c'.frames = c.frames
  root : c'.root = c.root
  kept : ∀ id e, c.model.get? id = some e → c'.model.get? id = some e
  grown : c'.model.size = c.model.size ∨ c'.model.size = c.model.size + 1
  detached : ∀ id, c.model.get? id = none →
    c'.model.parent? id = none ∧ ∀ slot p, id ∉ c'.model.members slot p

/-- A refused event leaves everything, or only appends the element that it has created. -/
theorem refused_cases {event : Event} (refused : c.handle discriminator event = .error (error, c')) :
    c' = c ∨ ∃ e : Element, e.Detached ∧ c' = { c with model := c.model.append e } := by
  have result := c.handled discriminator event
  rw [refused] at result
  cases result with
  | unchanged => exact .inl rfl
  | rejected => exact .inr ⟨_, detached_newElement _ _, rfl⟩

theorem Refused.of_append {e : Element} (populated : c.model.Populated) (detached : e.Detached) :
    c.Refused { c with model := c.model.append e } where
  frames := rfl
  root := rfl
  kept id old found := by
    have other : id ≠ c.model.nextId := by
      rintro rfl
      rw [Model.get?_nextId] at found
      cases found
    rwa [Model.get?_append, if_neg other]
  grown := .inr (Model.size_append _ _)
  detached id missing := by
    refine ⟨?_, fun slot p => ?_⟩
    · rw [Model.parent?_append detached, Model.parent?, missing]
      rfl
    · rw [Model.members_append detached]
      exact populated.not_mem_members missing slot p

theorem Refused.refl (populated : c.model.Populated) : c.Refused c where
  frames := rfl
  root := rfl
  kept _ _ found := found
  grown := .inl rfl
  detached id missing := by
    refine ⟨?_, populated.not_mem_members missing⟩
    rw [Model.parent?, missing]
    rfl

/-- How an accepted event changes the number of open elements. -/
def Steps (c : Construction) : Event → Construction → Prop
  | .opening _ _, c' => c'.depth = c.depth + 1
  | .closing, c' => c'.depth + 1 = c.depth

theorem Accepts.steps {event : Event} (accepted : c.Accepts discriminator event c') :
    c.Steps event c' := by
  cases accepted with
  | package noRoot frames applied => simp [Steps, depth, frames]
  | member notDetail noRoot frames known applied added => rfl
  | detail noRoot frames added => rfl
  | close frames inner => simp [Steps, depth, frames]
  | closeRoot frames => simp [Steps, depth, frames]

/-- After any events, accepted or not, over any model: an event that is refused leaves the open
elements, the root and all elements, and at most a detached element more; one that is accepted opens
one element or closes one. -/
theorem handle_outcome (reachable : c.Reachable discriminator) (event : Event) :
    match c.handle discriminator event with
    | .ok c' => c.Steps event c'
    | .error (_, c') => c.Refused c' := by
  split
  · next accepted => exact (accepts_of_handle accepted).steps
  · next refused =>
    have populated := reachable.populated
    rcases refused_cases refused with rfl | ⟨e, detached, rfl⟩
    · exact .refl populated
    · exact .of_append populated detached

/-- The events of a package with a class in it, after a class that was refused. -/
def interruptedEvents : List Event :=
  [.opening "EPackage" (.ofList [("name", "p")]),
    .opening "eClasses" (.ofList [("name", "A"), ("abstract", "perhaps")]),
    .opening "eClasses" (.ofList [("name", "A")])]

/-- What these events lead to. -/
def interrupted : Construction :=
  interruptedEvents.foldl (fun c event => after (c.handle "xsi:type" event)) { model := {} }

/-- The start of an attribute without a proper bound. -/
def unboundedStart : Event :=
  .opening "eAttributes" (.ofList [("name", "x"), ("lowerBound", "many")])

/-- The attribute is refused when it is in the model already. -/
theorem handle_outcome_interrupted :
    interrupted.Reachable "xsi:type" ∧ interrupted.depth = 2 ∧ interrupted.model.size = 3 ∧
      ∃ c', interrupted.handle "xsi:type" unboundedStart =
          .error (.invalidAttributeValue "lowerBound" "many" "a 32-bit integer", c') ∧
        interrupted.Refused c' ∧ c'.model.size = 4 := by
  have reachable : interrupted.Reachable "xsi:type" :=
    .foldl interruptedEvents (.start Model.slotsSound_empty.populated)
  have handled : interrupted.handle "xsi:type" unboundedStart =
      .error (.invalidAttributeValue "lowerBound" "many" "a 32-bit integer",
        after (interrupted.handle "xsi:type" unboundedStart)) := by rfl
  have outcome := handle_outcome reachable unboundedStart
  rw [handled] at outcome
  exact ⟨reachable, by decide, by decide, _, handled, outcome, by decide⟩

end Construction

end Metamodel
