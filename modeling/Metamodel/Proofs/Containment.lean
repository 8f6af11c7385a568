import Mathlib.Data.List.Induction
import Mathlib.Data.List.Nodup
import Metamodel.Proofs.Outline

/-!
Containment as runs of calls leave it.

A run starts from the empty model and creates elements and adds them to slots, failing additions
included. What stands in a slot is contained there (`SlotsSound`), whatever the run was. The
converse holds of an element as long as no other one has been put in its place: a slot for one
element drops its occupant, which keeps its container and its note of it.

Results:
1. `slotsSound_attach`, `slotsSound_append`, `SameOutline.slotsSound`: what every operation
   preserves.
2. `containment_of_run`: an element stands in a slot of its container exactly if nothing has taken
   its place; both views agree everywhere exactly if that never happened.
3. `run_second_occupant`: two generic types for one attribute, after which they disagree.
-/

namespace Metamodel

/-- What holds somewhere in a longer list holds somewhere in the shorter one or at its end. -/
theorem exists_split_append_singleton {α : Type} {P : List α → α → Prop} {l : List α} {a : α} :
    (∃ before x after, l ++ [a] = before ++ x :: after ∧ P before x) ↔
      (∃ before x after, l = before ++ x :: after ∧ P before x) ∨ P l a := by
  constructor
  · rintro ⟨before, x, after, split, holds⟩
    rcases List.eq_nil_or_concat after with rfl | ⟨rest, last, rfl⟩
    · obtain ⟨rfl, same⟩ := List.append_inj' split rfl
      cases same
      exact .inr holds
    · refine .inl ⟨before, x, rest, ?_, holds⟩
      rw [List.concat_eq_append, ← List.cons_append, ← List.append_assoc] at split
      exact (List.append_inj' split rfl).1
  · rintro (⟨before, x, after, rfl, holds⟩ | holds)
    · exact ⟨before, x, after ++ [a], by simp, holds⟩
    · exact ⟨l, a, [], rfl, holds⟩

namespace Slot

theorem mem_all (slot : Slot) : slot ∈ all := by
  cases slot <;> decide

end Slot

namespace Model

/-- Everything that stands in the slots of an element. -/
def allMembers (m : Model) (id : ElementId) : List ElementId :=
  Slot.all.flatMap fun slot => m.members slot id

theorem mem_allMembers {m : Model} {p c : ElementId} :
    c ∈ m.allMembers p ↔ ∃ slot, c ∈ m.members slot p := by
  simp [allMembers, Slot.mem_all]

/-- What stands in a slot is contained there: it has that container, stands there once and nowhere
else, has a kind that fits, notes its owner if its kind does, and is known by its name. -/
structure SlotsSound (m : Model) : Prop where
  parent : ∀ {slot p c}, c ∈ m.members slot p → m.parent? c = some p
  nodup : ∀ slot p, (m.members slot p).Nodup
  slot_unique : ∀ {slot slot' p c}, c ∈ m.members slot p → c ∈ m.members slot' p → slot = slot'
  fits : ∀ {slot p c}, c ∈ m.members slot p →
    (m.kind? p).any slot.isOn ∧ (m.kind? c).any (·.isA slot.memberClass)
  noted : ∀ {slot p c}, c ∈ m.members slot p → (m.kind? c).any Kind.notesOwner → m.noted? c = some p
  keyed : ∀ {slot p table name c}, m.table? slot p = some table → (name, c) ∈ table.entries →
    m.label c = name

/-- Containers and slots agree. -/
structure Consistent (m : Model) : Prop extends SlotsSound m where
  placed : ∀ {p c}, m.parent? c = some p → c ∈ m.allMembers p

/-! ## What the operations preserve -/

theorem exists_of_parent? {m : Model} {c p : ElementId} (h : m.parent? c = some p) :
    ∃ e, m.get? c = some e := by
  unfold parent? at h
  cases found : m.get? c with
  | none => simp [found] at h
  | some e => exact ⟨e, rfl⟩

theorem get?_of_kind? {m : Model} {id : ElementId} {k : Kind} (known : m.kind? id = some k) :
    ∃ e, m.get? id = some e ∧ e.kind = k := by
  simpa [kind?] using known

theorem get?_of_isPackage {m : Model} {id : ElementId} (isPackage : m.isPackage id) :
    ∃ e, m.get? id = some e := by
  have known : m.kind? id = some .ePackage := by simpa [Model.isPackage] using isPackage
  obtain ⟨e, found, -⟩ := get?_of_kind? known
  exact ⟨e, found⟩

theorem get?_nextId (m : Model) : m.get? m.nextId = none := by
  simp [get?, nextId, size]

theorem mem_members_of_table? {m : Model} {slot : Slot} {p c : ElementId} {name : String}
    {table : OrderedMap ElementId} (known : m.table? slot p = some table)
    (entry : (name, c) ∈ table.entries) : c ∈ m.members slot p := by
  unfold table? body? at known
  cases found : m.get? p with
  | none => simp [found] at known
  | some e =>
    have here : e.body.table? slot = some table := by simpa [found] using known
    have shown : e.body.members slot = table.values := Body.members_eq_values here
    have own : slot ≠ .annotations := by
      rintro rfl
      cases h : e.body <;> simp [h, Body.table?, Body.package?, EPackage.table?] at here
    simp only [members, found, Option.map_some, Option.getD_some, Element.members, if_neg own,
      shown]
    exact List.mem_map_of_mem entry

section Attach

variable {m : Model} {slot : Slot} {owner member : ElementId} {container content : Element}

/-- An element without a container stands in no slot. -/
theorem SlotsSound.not_mem_members (sound : m.SlotsSound) {c : ElementId}
    (free : m.parent? c = none) (slot : Slot) (p : ElementId) : c ∉ m.members slot p := by
  intro member
  rw [sound.parent member] at free
  exact Option.some_ne_none p free

theorem parent?_of_get? {c : ElementId} {e : Element} (h : m.get? c = some e) :
    m.parent? c = e.parent := by
  simp [parent?, h]

theorem kind?_of_get? {c : ElementId} {e : Element} (h : m.get? c = some e) :
    m.kind? c = some e.kind := by
  simp [kind?, h]

theorem parent?_attach_of_ne (held : m.get? owner = some container)
    (there : m.get? member = some content) (ne : owner ≠ member) {x : ElementId}
    (other : x ≠ member) : (m.attach slot owner member).parent? x = m.parent? x := by
  rw [parent?_attach held there ne, if_neg other]

/-- A container stays one: only a missing one is filled in. -/
theorem parent?_attach_of_parent? (held : m.get? owner = some container)
    (there : m.get? member = some content) (ne : owner ≠ member) (free : content.parent = none)
    {x p : ElementId} (h : m.parent? x = some p) :
    (m.attach slot owner member).parent? x = some p := by
  rw [parent?_attach_of_ne held there ne, h]
  rintro rfl
  rw [parent?_of_get? there, free] at h
  exact Option.some_ne_none p h.symm

/-- What stands in the slots after an addition: the new member, and what has not lost its place. -/
theorem mem_members_attach (held : m.get? owner = some container)
    (there : m.get? member = some content) (ne : owner ≠ member) (on : slot.isOn container.kind)
    (newName : container.hasMemberNamed slot content.label = false) {other : Slot}
    {p c : ElementId} :
    c ∈ (m.attach slot owner member).members other p ↔
      (p = owner ∧ other = slot ∧ c = member) ∨
        (c ∈ m.members other p ∧ ¬ (p = owner ∧ other = slot ∧ slot.isSingle)) := by
  rw [members_attach held there ne on newName]
  by_cases here : p = owner ∧ other = slot
  · obtain ⟨rfl, rfl⟩ := here
    simp [Slot.mem_grown, and_comm]
  · rw [if_neg here]
    constructor
    · exact fun h => .inr ⟨h, fun same => here ⟨same.1, same.2.1⟩⟩
    · rintro (⟨isOwner, isSlot, -⟩ | ⟨h, -⟩)
      · exact absurd ⟨isOwner, isSlot⟩ here
      · exact h

theorem slotsSound_attach (sound : m.SlotsSound) (held : m.get? owner = some container)
    (there : m.get? member = some content) (ne : owner ≠ member) (on : slot.isOn container.kind)
    (fit : content.kind.isA slot.memberClass) (free : content.parent = none)
    (newName : container.hasMemberNamed slot content.label = false) :
    (m.attach slot owner member).SlotsSound := by
  have free' : m.parent? member = none := (parent?_of_get? there).trans free
  have absent := sound.not_mem_members free'
  have mem {other : Slot} {p c : ElementId} : c ∈ (m.attach slot owner member).members other p ↔
      (p = owner ∧ other = slot ∧ c = member) ∨
        (c ∈ m.members other p ∧ ¬ (p = owner ∧ other = slot ∧ slot.isSingle)) :=
    mem_members_attach held there ne on newName
  refine
    { parent := ?parent, nodup := ?nodup, slot_unique := ?slot_unique, fits := ?fits
      noted := ?noted, keyed := ?keyed }
  case parent =>
    intro other p c h
    rcases mem.mp h with ⟨rfl, -, rfl⟩ | ⟨h, -⟩
    · rw [parent?_attach held there ne, if_pos rfl]
    · exact parent?_attach_of_parent? held there ne free (sound.parent h)
  case nodup =>
    intro other p
    rw [members_attach held there ne on newName]
    split
    · unfold Slot.grown
      split
      · exact List.nodup_singleton member
      · refine List.nodup_append.mpr ⟨sound.nodup slot owner, List.nodup_singleton member, ?_⟩
        intro a ha b hb same
        exact absent slot owner (List.mem_singleton.mp hb ▸ same ▸ ha)
    · exact sound.nodup other p
  case slot_unique =>
    -- The new member stood nowhere, so it does not stand in a second slot now.
    intro first second p c h h'
    rcases mem.mp h with ⟨-, rfl, rfl⟩ | ⟨old, -⟩
    · rcases mem.mp h' with ⟨-, rfl, -⟩ | ⟨old', -⟩
      · rfl
      · exact absurd old' (absent second p)
    · rcases mem.mp h' with ⟨-, -, rfl⟩ | ⟨old', -⟩
      · exact absurd old (absent first p)
      · exact sound.slot_unique old old'
  case fits =>
    intro other p c h
    rw [kind?_attach held there ne, kind?_attach held there ne]
    rcases mem.mp h with ⟨rfl, rfl, rfl⟩ | ⟨h, -⟩
    · rw [kind?_of_get? held, kind?_of_get? there]
      exact ⟨on, fit⟩
    · exact sound.fits h
  case noted =>
    intro other p c h notes
    rw [kind?_attach held there ne] at notes
    rw [noted?_attach held there ne]
    rcases mem.mp h with ⟨rfl, -, rfl⟩ | ⟨h, -⟩
    · rw [kind?_of_get? there] at notes
      rw [if_pos rfl]
      exact Body.noted?_ownedBy notes p
    · have ne' : c ≠ member := fun same => absent other p (same ▸ h)
      rw [if_neg ne']
      exact sound.noted h notes
  case keyed =>
    -- Only the table of the slot has changed, by an entry under the name of the member.
    intro other p table name c known entry
    rw [label_attach held there ne]
    rw [table?_attach held there ne] at known
    split at known
    · next here =>
      obtain ⟨rfl, rfl⟩ := here
      obtain ⟨before, knownBefore, rfl⟩ := Option.map_eq_some_iff.mp known
      have new : before.contains content.label = false := by
        have key : (m.table? other p).any (·.contains content.label) = false := by
          simpa [table?, body?, held, Body.table?, Element.hasMemberNamed] using newName
        simpa [knownBefore] using key
      rw [OrderedMap.entries_insert_new new, List.mem_append, List.mem_singleton] at entry
      rcases entry with old | same
      · exact sound.keyed knownBefore old
      · cases same
        exact label_of_get? there
    · exact sound.keyed known entry

/-- What an element holds after an addition: all that it held but the occupant of the slot, if the
slot is for one element, and what the addition has put there. -/
theorem mem_allMembers_attach (sound : m.SlotsSound) (held : m.get? owner = some container)
    (there : m.get? member = some content) (ne : owner ≠ member) (on : slot.isOn container.kind)
    (free : content.parent = none)
    (newName : container.hasMemberNamed slot content.label = false) {p c : ElementId} :
    c ∈ (m.attach slot owner member).allMembers p ↔
      (c ∈ m.allMembers p ∧ ¬ (p = owner ∧ slot.isSingle ∧ c ∈ m.members slot p)) ∨
        (m.parent? c = none ∧ (m.attach slot owner member).parent? c = some p) := by
  have free' : m.parent? member = none := (parent?_of_get? there).trans free
  simp only [mem_allMembers, mem_members_attach held there ne on newName,
    parent?_attach held there ne]
  constructor
  · rintro ⟨other, ⟨rfl, rfl, rfl⟩ | ⟨h, open_⟩⟩
    · exact .inr ⟨free', if_pos rfl⟩
    · refine .inl ⟨⟨other, h⟩, ?_⟩
      rintro ⟨isOwner, single, occupied⟩
      exact open_ ⟨isOwner, sound.slot_unique h occupied, single⟩
  · rintro (⟨⟨other, h⟩, kept⟩ | ⟨unowned, h⟩)
    · refine ⟨other, .inr ⟨h, ?_⟩⟩
      rintro ⟨isOwner, rfl, single⟩
      exact kept ⟨isOwner, single, h⟩
    · split at h
      · next isMember =>
        cases h
        exact ⟨slot, .inl ⟨rfl, rfl, isMember⟩⟩
      · rw [unowned] at h
        exact absurd h.symm (Option.some_ne_none p)

end Attach

end Model

/-- An element with nothing in its slots and without a container. -/
structure Element.Detached (e : Element) : Prop where
  parent : e.parent = none
  members : ∀ slot, e.members slot = []
  noteContents : e.body.noteContents = []

namespace Element

theorem detached_blank (id : ElementId) (kind : Kind) (name : Option String) :
    Detached { Element.blank id kind with name := name } where
  parent := rfl
  members slot := by cases kind <;> cases slot <;> rfl
  noteContents := by cases kind <;> rfl

end Element

namespace Model

/-- Where everything stands as it stood, slots stay sound as long as those that they relate keep
what is said about them. -/
theorem SlotsSound.of_same_members {m m' : Model} (sound : m.SlotsSound)
    (members : ∀ slot p, m'.members slot p = m.members slot p)
    (parent : ∀ id, m'.parent? id = m.parent? id)
    (owner : ∀ {slot p c}, c ∈ m.members slot p → m'.kind? p = m.kind? p)
    (member : ∀ {slot p c}, c ∈ m.members slot p →
      m'.kind? c = m.kind? c ∧ m'.noted? c = m.noted? c ∧ m'.label c = m.label c)
    (table : ∀ {slot p table name c}, m'.table? slot p = some table → (name, c) ∈ table.entries →
      m.table? slot p = some table) : m'.SlotsSound := by
  refine
    { parent := ?parent, nodup := ?nodup, slot_unique := ?slot_unique, fits := ?fits
      noted := ?noted, keyed := ?keyed }
  case parent =>
    intro slot p c h
    rw [members] at h
    rw [parent]
    exact sound.parent h
  case nodup =>
    intro slot p
    rw [members]
    exact sound.nodup slot p
  case slot_unique =>
    intro slot slot' p c h h'
    rw [members] at h h'
    exact sound.slot_unique h h'
  case fits =>
    intro slot p c h
    rw [members] at h
    rw [owner h, (member h).1]
    exact sound.fits h
  case noted =>
    intro slot p c h
    rw [members] at h
    rw [(member h).1, (member h).2.1]
    exact sound.noted h
  case keyed =>
    intro slot p entries name c known entry
    have h := mem_members_of_table? known entry
    rw [members] at h
    rw [(member h).2.2]
    exact sound.keyed (table known entry) entry

section Append

variable {m : Model} {e : Element}

theorem members_append (detached : e.Detached) (slot : Slot) (id : ElementId) :
    (m.append e).members slot id = m.members slot id := by
  unfold members
  rw [get?_append]
  split
  · next new => simp [new, get?_nextId, detached.members slot]
  · rfl

theorem allMembers_append (detached : e.Detached) (id : ElementId) :
    (m.append e).allMembers id = m.allMembers id := by
  simp [allMembers, members_append detached]

theorem parent?_append (detached : e.Detached) (id : ElementId) :
    (m.append e).parent? id = m.parent? id := by
  unfold parent?
  rw [get?_append]
  split
  · next new => simp [new, get?_nextId, detached.parent]
  · rfl

/-- An element that has a container is not the one that is created next. -/
theorem ne_nextId_of_parent? {c p : ElementId} (h : m.parent? c = some p) : c ≠ m.nextId := by
  obtain ⟨e, found⟩ := exists_of_parent? h
  rintro rfl
  rw [get?_nextId] at found
  exact Option.some_ne_none e found.symm

theorem get?_append_of_parent? {c p : ElementId} (h : m.parent? c = some p) :
    (m.append e).get? c = m.get? c := by
  rw [get?_append, if_neg (ne_nextId_of_parent? h)]

theorem slotsSound_append (sound : m.SlotsSound) (detached : e.Detached) :
    (m.append e).SlotsSound := by
  have owner_old {slot : Slot} {p c : ElementId} (h : c ∈ m.members slot p) : p ≠ m.nextId := by
    rintro rfl
    simp [members, get?_nextId] at h
  refine sound.of_same_members (members_append detached) (parent?_append detached) ?owner ?member
    ?table
  case owner =>
    intro slot p c h
    rw [kind?, get?_append, if_neg (owner_old h), kind?]
  case member =>
    intro slot p c h
    unfold kind? noted? body? label
    rw [get?_append_of_parent? (sound.parent h)]
    exact ⟨rfl, rfl, rfl⟩
  case table =>
    intro slot p table name c known entry
    have h := mem_members_of_table? known entry
    rw [members_append detached] at h
    unfold table? body? at known ⊢
    rwa [get?_append, if_neg (owner_old h)] at known

end Append

theorem SameOutline.slotsSound {m m' : Model} (same : SameOutline m m') (sound : m.SlotsSound) :
    m'.SlotsSound :=
  sound.of_same_members same.members same.parent? (fun {_ p _} _ => same.kind? p)
    (fun {_ _ c} _ => ⟨same.kind? c, same.noted? c, same.label c⟩)
    fun {slot p _ _ _} known _ => (same.table? slot p).symm.trans known

/-! ## Runs of calls -/

/-- A call that builds up a model. -/
inductive Call
  | create (kind : Kind) (name : Option String)
  | add (slot : Slot) (owner member : ElementId)
  deriving DecidableEq

/-- What a call leaves, whether it succeeds or not. -/
def perform (m : Model) : Call → Model
  | .create kind name => m.create kind name
  | .add slot owner member =>
    match m.add slot owner member with
    | .ok m' => m'
    | .error _ => m

/-- What a sequence of calls makes of the empty model. -/
def run (calls : List Call) : Model := calls.foldl perform {}

theorem run_append_singleton (calls : List Call) (call : Call) :
    run (calls ++ [call]) = (run calls).perform call := by
  simp [run]

theorem slotsSound_empty : SlotsSound {} where
  parent h := by simp [members, get?] at h
  nodup slot p := by simp [members, get?]
  slot_unique h := by simp [members, get?] at h
  fits h := by simp [members, get?] at h
  noted h := by simp [members, get?] at h
  keyed h := by simp [table?, body?, get?] at h

theorem slotsSound_add {m m' : Model} {slot : Slot} {owner member : ElementId}
    (sound : m.SlotsSound) (added : m.add slot owner member = .ok m') : m'.SlotsSound := by
  obtain ⟨container, content, held, there, on, fit, ne, free, newName, rfl⟩ := add_ok_iff.mp added
  exact slotsSound_attach sound held there ne on fit free newName

/-- A call appends a detached element, or makes an addition that is accepted, or changes nothing. -/
theorem perform_keeps {m : Model} {P : Model → Prop} (start : P m)
    (created : ∀ e : Element, e.Detached → P (m.append e))
    (added : ∀ {slot owner member m'}, m.add slot owner member = .ok m' → P m') (call : Call) :
    P (m.perform call) := by
  cases call with
  | create kind name => exact created _ (Element.detached_blank m.nextId kind name)
  | add slot owner member =>
    simp only [perform]
    split
    · next accepted => exact added accepted
    · exact start

theorem slotsSound_perform {m : Model} (sound : m.SlotsSound) (call : Call) :
    (m.perform call).SlotsSound :=
  perform_keeps sound (fun _ detached => slotsSound_append sound detached)
    (fun added => slotsSound_add sound added) call

theorem slotsSound_run (calls : List Call) : (run calls).SlotsSound := by
  induction calls using List.reverseRecOn with
  | nil => exact slotsSound_empty
  | append_singleton calls call ih =>
    rw [run_append_singleton]
    exact slotsSound_perform ih call

/-- No call changes the container of an element that has one. -/
theorem parent?_perform {m : Model} {p c : ElementId} (h : m.parent? c = some p) (call : Call) :
    (m.perform call).parent? c = some p := by
  refine perform_keeps (P := fun n => n.parent? c = some p) h
    (fun _ detached => (parent?_append detached c).trans h) ?added call
  case added =>
    intro slot owner member m' added
    obtain ⟨container, content, held, there, -, -, ne, free, -, rfl⟩ := add_ok_iff.mp added
    exact parent?_attach_of_parent? held there ne free h

/-- Some call of the sequence is such an `event` in the model that it meets. -/
def Happens (event : Model → Call → Prop) (calls : List Call) : Prop :=
  ∃ before call after, calls = before ++ call :: after ∧ event (run before) call

theorem not_happens_nil (event : Model → Call → Prop) : ¬ Happens event [] := by
  rintro ⟨before, call, after, split, -⟩
  exact absurd split.symm (by simp)

theorem happens_append_singleton {event : Model → Call → Prop} {calls : List Call} {call : Call} :
    Happens event (calls ++ [call]) ↔ Happens event calls ∨ event (run calls) call :=
  exists_split_append_singleton

/-- The call puts another element in the place of `c` in a slot of `p`. -/
def Displaces (p c : ElementId) (m : Model) (call : Call) : Prop :=
  ∃ slot member m', call = .add slot p member ∧ slot.isSingle ∧ c ∈ m.members slot p ∧
    m.add slot p member = .ok m'

/-- Some call of the sequence has put another element in the place of `c` in a slot of `p`. -/
def Displaced (calls : List Call) (p c : ElementId) : Prop := Happens (Displaces p c) calls

theorem displaced_append_singleton {calls : List Call} {call : Call} {p c : ElementId} :
    Displaced (calls ++ [call]) p c ↔ Displaced calls p c ∨ Displaces p c (run calls) call :=
  happens_append_singleton

theorem not_displaces_create {m : Model} {p c : ElementId} (kind : Kind) (name : Option String) :
    ¬ Displaces p c m (.create kind name) := by
  rintro ⟨_, _, _, same, -⟩
  cases same

theorem not_displaces_add_of_error {m : Model} {slot : Slot} {p c owner member : ElementId}
    {error : Error} (refused : m.add slot owner member = .error error) :
    ¬ Displaces p c m (.add slot owner member) := by
  rintro ⟨_, _, _, same, -, -, added⟩
  cases same
  rw [refused] at added
  cases added

theorem displaces_add_iff {m m' : Model} {slot : Slot} {p c owner member : ElementId}
    (added : m.add slot owner member = .ok m') :
    Displaces p c m (.add slot owner member) ↔
      p = owner ∧ slot.isSingle ∧ c ∈ m.members slot p := by
  constructor
  · rintro ⟨_, _, _, same, single, occupied, -⟩
    cases same
    exact ⟨rfl, single, occupied⟩
  · rintro ⟨rfl, single, occupied⟩
    exact ⟨slot, member, m', rfl, single, occupied, added⟩

/-- Where slots and containers are as they were, nothing is displaced and nothing gets a
container. -/
theorem mem_allMembers_of_unchanged {m m' : Model} {call : Call} {p c : ElementId}
    (kept : ¬ Displaces p c m call) (members : m'.allMembers p = m.allMembers p)
    (container : m'.parent? c = m.parent? c) :
    c ∈ m'.allMembers p ↔
      (c ∈ m.allMembers p ∧ ¬ Displaces p c m call) ∨
        (m.parent? c = none ∧ m'.parent? c = some p) := by
  rw [members, container]
  constructor
  · exact fun h => .inl ⟨h, kept⟩
  · rintro (⟨h, -⟩ | ⟨free, h⟩)
    · exact h
    · rw [free] at h
      exact absurd h.symm (Option.some_ne_none p)

/-- An element stands in a slot after a call if it stood there and has not been displaced, or if the
call has given it its container. -/
theorem mem_allMembers_perform {m : Model} (sound : m.SlotsSound) (call : Call) {p c : ElementId} :
    c ∈ (m.perform call).allMembers p ↔
      (c ∈ m.allMembers p ∧ ¬ Displaces p c m call) ∨
        (m.parent? c = none ∧ (m.perform call).parent? c = some p) := by
  cases call with
  | create kind name =>
    have detached := Element.detached_blank m.nextId kind name
    exact mem_allMembers_of_unchanged (not_displaces_create kind name)
      (allMembers_append detached p) (parent?_append detached c)
  | add slot owner member =>
    cases added : m.add slot owner member with
    | error error =>
      have same : m.perform (.add slot owner member) = m := by simp [perform, added]
      exact mem_allMembers_of_unchanged (not_displaces_add_of_error added) (by rw [same])
        (by rw [same])
    | ok m' =>
      have same : m.perform (.add slot owner member) = m' := by simp [perform, added]
      rw [same, displaces_add_iff added]
      obtain ⟨container, content, held, there, on, -, ne, free, newName, rfl⟩ := add_ok_iff.mp added
      exact mem_allMembers_attach sound held there ne on free newName

theorem parent?_of_displaces {m : Model} (sound : m.SlotsSound) {call : Call} {p c : ElementId}
    (h : Displaces p c m call) : m.parent? c = some p := by
  obtain ⟨slot, _, _, -, -, occupied, -⟩ := h
  exact sound.parent occupied

/-- A displaced element keeps its container. -/
theorem parent?_of_displaced {calls : List Call} {p c : ElementId} (h : Displaced calls p c) :
    (run calls).parent? c = some p := by
  induction calls using List.reverseRecOn with
  | nil => exact absurd h (not_happens_nil _)
  | append_singleton calls call ih =>
    rw [run_append_singleton]
    rcases displaced_append_singleton.mp h with old | now
    · exact parent?_perform (ih old) call
    · exact parent?_perform (parent?_of_displaces (slotsSound_run calls) now) call

/-- An element stands in the slots of its container exactly as long as it has not been displaced. -/
theorem mem_allMembers_run (calls : List Call) {p c : ElementId} :
    c ∈ (run calls).allMembers p ↔ (run calls).parent? c = some p ∧ ¬ Displaced calls p c := by
  induction calls using List.reverseRecOn with
  | nil => simp [mem_allMembers, run, members, parent?, get?]
  | append_singleton calls call ih =>
    rw [run_append_singleton, mem_allMembers_perform (slotsSound_run calls), ih,
      displaced_append_singleton]
    constructor
    · rintro (⟨⟨h, before⟩, now⟩ | ⟨free, h⟩)
      · exact ⟨parent?_perform h call, fun displaced => displaced.elim before now⟩
      · refine ⟨h, ?_⟩
        rintro (before | now)
        · rw [parent?_of_displaced before] at free
          exact Option.some_ne_none p free
        · rw [parent?_of_displaces (slotsSound_run calls) now] at free
          exact Option.some_ne_none p free
    · rintro ⟨h, kept⟩
      cases container : (run calls).parent? c with
      | none => exact .inr ⟨rfl, h⟩
      | some q =>
        rw [parent?_perform container call] at h
        cases h
        exact .inl ⟨⟨rfl, fun before => kept (.inl before)⟩, fun now => kept (.inr now)⟩

/-- Whatever the calls were, slots are sound, and an element stands in the slots of its container
exactly if it has not been displaced. So containers and slots agree exactly if no element has. -/
theorem containment_of_run (calls : List Call) :
    (run calls).SlotsSound ∧
      (∀ p c, c ∈ (run calls).allMembers p ↔
        (run calls).parent? c = some p ∧ ¬ Displaced calls p c) ∧
      ((run calls).Consistent ↔ ∀ p c, ¬ Displaced calls p c) := by
  refine ⟨slotsSound_run calls, fun p c => mem_allMembers_run calls, ?_, ?_⟩
  · intro consistent p c displaced
    have placed := consistent.placed (parent?_of_displaced displaced)
    exact ((mem_allMembers_run calls).mp placed).2 displaced
  · intro kept
    exact
      { slotsSound_run calls with
        placed := fun {p c} h => (mem_allMembers_run calls).mpr ⟨h, kept p c⟩ }

/-- An attribute is given a generic type and then another one. The first keeps the attribute as its
container, which no longer holds it. -/
theorem run_second_occupant :
    ¬ (run [.create .eAttribute none, .create .eGenericType none, .create .eGenericType none,
        .add .genericType ⟨0⟩ ⟨1⟩, .add .genericType ⟨0⟩ ⟨2⟩]).Consistent := by
  intro consistent
  have container : (run [.create .eAttribute none, .create .eGenericType none,
      .create .eGenericType none, .add .genericType ⟨0⟩ ⟨1⟩,
      .add .genericType ⟨0⟩ ⟨2⟩]).parent? ⟨1⟩ = some ⟨0⟩ := by decide
  have placed := consistent.placed container
  revert placed
  decide

end Model

end Metamodel
