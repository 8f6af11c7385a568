import Metamodel.Proofs.Acceptance
import Metamodel.Proofs.Renaming

/-!
Additions as changes of a model in place.

An addition makes several checks and several writes. Done in place, what is written before a check
fails would stay written. Slots that hold their members by name are written before the member's
container, all others after it; either way the checks come first, so a failed addition leaves no
trace, and the writes together make the model that `Model.add` gives.

What an addition changes is said field by field: the slot, the container, the note of it. Everything
else is compared with the slot emptied on one side and the owner forgotten on the other. That fixes
the model: there is only one that fits.

Results:
1. `gives_addInPlace`, `gives_addDetailInPlace`: the outcome in place.
2. `added_iff`, `detailed_addDetail`: what an addition changes.
3. `additions_in_place`: both outcomes of every addition.
-/

namespace Metamodel

/-! ## Slots and owners on their own -/

namespace Slot

/-- Slots that hold their members by name. -/
def isKeyed : Slot → Bool
  | .classes | .dataTypes | .subpackages => true
  | _ => false

end Slot

namespace Body

theorem isSome_table? {slot : Slot} {b : Body} (on : slot.isOn b.kind) (keyed : slot.isKeyed) :
    (b.table? slot).isSome := by
  cases slot <;> cases b <;>
    first | rfl | exact Bool.noConfusion keyed | exact Bool.noConfusion on

theorem table?_eq_none {slot : Slot} (plain : slot.isKeyed = false) (b : Body) :
    b.table? slot = none := by
  cases slot <;> cases b <;> first | rfl | cases plain

/-- The body with other members in a slot: those of a list, or of a table where the slot has one. -/
def refill (slot : Slot) (held : List ElementId) (table : OrderedMap ElementId) (b : Body) : Body :=
  match slot with
  | .annotations => b
  | .classes => b.mapPackage fun p => { p with classes := table }
  | .dataTypes => b.mapPackage fun p => { p with dataTypes := table }
  | .subpackages => b.mapPackage fun p => { p with subpackages := table }
  | .attributes => b.mapClass fun c => { c with attributes := held }
  | .references => b.mapClass fun c => { c with references := held }
  | .operations => b.mapClass fun c => { c with operations := held }
  | .genericSuperTypes => b.mapClass fun c => { c with genericSuperTypes := held }
  | .parameters => b.mapOperation fun o => { o with parameters := held }
  | .typeParameters =>
    let b := b.mapOperation fun o => { o with typeParameters := held }
    b.mapClassifier fun c => { c with typeParameters := held }
  | .literals =>
    match b with
    | .eEnum e => .eEnum { e with literals := held }
    | other => other
  | .bounds =>
    match b with
    | .eTypeParameter t => .eTypeParameter { t with bounds := held }
    | other => other
  | .typeArguments => b.mapGenericType fun g => { g with typeArguments := held }
  | .lowerBound => b.mapGenericType fun g => { g with lowerBound := held.head? }
  | .upperBound => b.mapGenericType fun g => { g with upperBound := held.head? }
  | .genericType => b.mapTyped fun t => { t with genericType := held.head? }

theorem refill_refill (slot : Slot) (held held' : List ElementId)
    (table table' : OrderedMap ElementId) (b : Body) :
    (b.refill slot held table).refill slot held' table' = b.refill slot held' table' := by
  cases b <;> cases slot <;> rfl

theorem refill_members (slot : Slot) (b : Body) :
    b.refill slot (b.members slot) ((b.table? slot).getD ∅) = b := by
  cases b <;> cases slot <;>
    first
    | rfl
    | simp only [refill, mapGenericType, mapTyped, members, Option.head?_toList]

theorem refill_place (slot : Slot) (name : String) (member : ElementId) (held : List ElementId)
    (table : OrderedMap ElementId) (b : Body) :
    (b.place slot name member).refill slot held table = b.refill slot held table := by
  cases b <;> cases slot <;> rfl

/-- The body with another note of its owner, in the kinds that note theirs. -/
def noting (owner : Option ElementId) : Body → Body
  | .ePackage p => .ePackage { p with package := owner }
  | .eClass c => .eClass { c with package := owner }
  | .eDataType d => .eDataType { d with package := owner }
  | .eEnum e => .eEnum { e with package := owner }
  | .eEnumLiteral l => .eEnumLiteral { l with owner := owner }
  | .eAttribute a => .eAttribute { a with containingClass := owner }
  | .eReference r => .eReference { r with containingClass := owner }
  | .eOperation o => .eOperation { o with containingClass := owner }
  | .eParameter p => .eParameter { p with operation := owner }
  | b => b

theorem noting_noting (owner owner' : Option ElementId) (b : Body) :
    (b.noting owner).noting owner' = b.noting owner' := by
  cases b <;> rfl

theorem noting_noted? (b : Body) : b.noting b.noted? = b := by
  cases b <;> rfl

theorem noted?_eq_none {b : Body} (silent : b.kind.notesOwner = false) : b.noted? = none := by
  cases b <;> first | rfl | exact Bool.noConfusion silent

@[simp]
theorem kind_noting (owner : Option ElementId) (b : Body) : (b.noting owner).kind = b.kind := by
  cases b <;> rfl

theorem ownedBy_eq_noting (owner : ElementId) (b : Body) :
    b.ownedBy owner = b.noting (some owner) := by
  cases b <;> rfl

end Body

namespace Element

/-- The element with nothing in a slot. -/
def emptied (slot : Slot) (e : Element) : Element :=
  if slot = .annotations then { e with annotations := [] }
  else { e with body := e.body.refill slot [] ∅ }

/-- The element without a container and without a note of one. -/
def disowned (e : Element) : Element := { e with parent := none, body := e.body.noting none }

theorem emptied_place (slot : Slot) (name : String) (member : ElementId) (e : Element) :
    (e.place slot name member).emptied slot = e.emptied slot := by
  unfold place emptied
  split
  · rfl
  · simp only [Body.refill_place]

theorem disowned_ownedBy (owner : ElementId) (e : Element) :
    (e.ownedBy owner).disowned = e.disowned := by
  simp only [disowned, ownedBy, Body.ownedBy_eq_noting, Body.noting_noting]

@[simp]
theorem kind_disowned (e : Element) : e.disowned.kind = e.kind := Body.kind_noting none e.body

/-- An element is known from what is in a slot and the rest. -/
theorem eq_of_emptied {slot : Slot} {e e' : Element} (rest : e'.emptied slot = e.emptied slot)
    (members : e'.members slot = e.members slot)
    (table : e'.body.table? slot = e.body.table? slot) : e' = e := by
  obtain ⟨id, name, parent, annotations, body⟩ := e
  obtain ⟨id', name', parent', annotations', body'⟩ := e'
  unfold emptied Element.members at *
  by_cases annotated : slot = .annotations
  · simp_all
  · simp only [if_neg annotated, Element.mk.injEq] at rest members
    obtain ⟨rfl, rfl, rfl, rfl, rest⟩ := rest
    -- Emptying is undone by putting the same members back on both sides.
    have whole := congrArg (Body.refill slot (body.members slot) ((body.table? slot).getD ∅)) rest
    rw [Body.refill_refill, Body.refill_refill, Body.refill_members, ← members, ← table,
      Body.refill_members] at whole
    rw [whole]

/-- An element is known from its container, its note of it and the rest. -/
theorem eq_of_disowned {e e' : Element} (rest : e'.disowned = e.disowned)
    (parent : e'.parent = e.parent) (noted : e'.body.noted? = e.body.noted?) : e' = e := by
  obtain ⟨id, name, parent, annotations, body⟩ := e
  obtain ⟨id', name', parent', annotations', body'⟩ := e'
  simp only [disowned, Element.mk.injEq] at rest parent noted
  obtain ⟨rfl, rfl, -, rfl, rest⟩ := rest
  have whole := congrArg (Body.noting body.noted?) rest
  rw [Body.noting_noting, Body.noting_noting, Body.noting_noted?, ← noted, Body.noting_noted?]
    at whole
  rw [whole, parent]

end Element

/-! ## Changes in place -/

/-- A change of a model in place, which may fail on the way. What it has written by then stays. -/
abbrev InPlace := EStateM Error Model Unit

namespace InPlace

/-- Fails unless the model meets a condition. -/
def check (condition : Model → Bool) (error : Model → Error) : InPlace := do
  let m ← get
  if condition m then pure () else throw (error m)

def checkKnown (id : ElementId) : InPlace :=
  check (fun m => (m.get? id).isSome) fun _ => .unknownElement id.index

def checkKind (id : ElementId) (expected : String) (fits : Kind → Bool) : InPlace :=
  check (fun m => (m.kind? id).any fits) fun m => .kindMismatch expected (m.describe id)

def checkFree (owner member : ElementId) : InPlace :=
  check (fun m => owner ≠ member && (m.parent? member).isNone)
    fun m => .alreadyContained (m.describe member)

/-- Writes to the element with this id. -/
def write (id : ElementId) (f : Element → Element) : InPlace := modify fun m => m.modify id f

def setContainer (owner member : ElementId) : InPlace :=
  write member fun e => { e with parent := some owner }

def noteOwner (owner member : ElementId) : InPlace :=
  write member fun e => { e with body := e.body.ownedBy owner }

def place (slot : Slot) (owner member : ElementId) : InPlace := do
  let m ← get
  write owner (Element.place slot (m.label member) member)

/-- Puts a member into a slot by its name, unless the name is taken. -/
def placeNamed (slot : Slot) (owner member : ElementId) : InPlace := do
  check (fun m => (m.table? slot owner).isSome)
    fun m => .kindMismatch "EPackage" (m.describe owner)
  check (fun m => !(m.table? slot owner).any (·.contains (m.label member)))
    fun m => .duplicateName (m.describe owner) (m.label member)
  place slot owner member

/-- Contains a member. Where its name has to be free, the slot is written before the container. -/
def contain (slot : Slot) (owner member : ElementId) : InPlace := do
  checkFree owner member
  if slot.isKeyed then do
    placeNamed slot owner member
    setContainer owner member
  else do
    setContainer owner member
    place slot owner member

section Runs

variable {m : Model} {condition : Model → Bool} {error : Model → Error} {rest : InPlace}

theorem run_check_passed (met : condition m = true) :
    (check condition error >>= fun _ => rest).run m = rest.run m := by
  have passed : (check condition error).run m = .ok () m := by simp [check, met]
  simp [passed]

theorem run_check_failed (unmet : condition m = false) :
    (check condition error >>= fun _ => rest).run m = .error (error m) m := by
  have failed : (check condition error).run m = .error (error m) m := by simp [check, unmet]
  simp [failed]

end Runs

/-- Run from a model, the change has this result; where it fails, the model is as it was. -/
def Gives (m : Model) (change : InPlace) (result : Except Error Model) : Prop :=
  change.run m = match result with
    | .ok m' => .ok () m'
    | .error e => .error e m

namespace Gives

variable {m : Model} {condition : Model → Bool} {error : Model → Error} {rest : InPlace}

/-- A check in place is a demand on the model as it stands. -/
theorem check {met : Bool} {e : Error} {result : Unit → Except Error Model}
    (same : condition m = met) (shown : error m = e) (onward : met = true → Gives m rest (result ())) :
    Gives m (InPlace.check condition error >>= fun _ => rest) (Model.demand met e >>= result) := by
  subst same shown
  cases met : condition m with
  | true => exact (run_check_passed met).trans (onward met)
  | false => exact run_check_failed met

/-- What has to be known is there for the rest. -/
theorem known {id : ElementId} {result : Element → Except Error Model}
    (onward : ∀ e, m.get? id = some e → Gives m rest (result e)) :
    Gives m (checkKnown id >>= fun _ => rest) (m.require id >>= result) := by
  unfold Model.require
  cases found : m.get? id with
  | none => exact run_check_failed (by simp [found])
  | some e => exact (run_check_passed (by simp [found])).trans (onward e found)

end Gives

end InPlace

namespace Model

open InPlace

variable {m : Model} {slot : Slot} {owner member : ElementId} {container content : Element}

/-- Makes `member` a member of a slot of `owner`, in place. -/
def addInPlace (slot : Slot) (owner member : ElementId) : InPlace := do
  checkKnown owner
  checkKnown member
  checkKind owner slot.ownerName slot.isOn
  checkKind member slot.memberName (·.isA slot.memberClass)
  contain slot owner member
  noteOwner owner member

theorem modify_comm {a b : ElementId} (ne : a ≠ b) (f g : Element → Element) :
    (m.modify a f).modify b g = (m.modify b g).modify a f := by
  refine eq_of_get? fun id => ?_
  simp only [get?_modify]
  grind

theorem modify_modify (id : ElementId) (f g : Element → Element) :
    (m.modify id f).modify id g = m.modify id (g ∘ f) := by
  refine eq_of_get? fun other => ?_
  simp only [get?_modify]
  split <;> simp

/-- The slot, the container and the note of it are written one after the other. -/
theorem attach_eq (m : Model) (slot : Slot) (owner member : ElementId) :
    m.attach slot owner member =
      ((m.modify owner (Element.place slot (m.label member) member)).modify member
        fun e => { e with parent := some owner }).modify member
          fun e => { e with body := e.body.ownedBy owner } := by
  rw [modify_modify]
  rfl

/-- The slot may be written after the container as well. -/
theorem attach_eq_of_ne (ne : owner ≠ member) :
    m.attach slot owner member =
      ((m.modify member fun e => { e with parent := some owner }).modify owner
        (Element.place slot (m.label member) member)).modify member
          fun e => { e with body := e.body.ownedBy owner } := by
  rw [attach_eq, modify_comm ne]

theorem label_modify {id : ElementId} {f : Element → Element} (keeps : ∀ e, (f e).label = e.label)
    (other : ElementId) : (m.modify id f).label other = m.label other := by
  unfold label
  rw [get?_modify]
  split
  · next same =>
    subst same
    cases m.get? other <;> simp [keeps]
  · rfl

/-- In place, an addition gives what it gives otherwise. -/
theorem gives_addInPlace (m : Model) (slot : Slot) (owner member : ElementId) :
    Gives m (addInPlace slot owner member) (m.add slot owner member) := by
  unfold addInPlace add contain
  refine .known fun container held => .known fun content there => ?_
  simp only [bind_assoc]
  refine .check (by simp [kind?, held]) rfl fun on => ?_
  refine .check (by simp [kind?, there]) rfl fun _ => ?_
  refine .check (by simp [parent?, there]) rfl fun free => ?_
  have ne : owner ≠ member := by simp_all
  have tableEq : m.table? slot owner = container.body.table? slot := table?_of_get? held slot
  have name : m.label member = content.label := label_of_get? there
  -- A slot without a table has no name to be free, so its container may be written first.
  cases keyed : slot.isKeyed with
  | true =>
    have table : (m.table? slot owner).isSome := by
      rw [tableEq]
      exact Body.isSome_table? on keyed
    simp only [if_true, placeNamed, bind_assoc]
    refine (run_check_passed table).trans ?_
    refine Gives.check ?_ (by rw [name]) fun new => ?_
    · rw [tableEq, name]
      rfl
    · rw [attach_eq]
      rfl
  | false =>
    have new : container.hasMemberNamed slot content.label = false := by
      change (container.body.table? slot).any _ = false
      rw [Body.table?_eq_none keyed]
      rfl
    have kept : (m.modify member fun e => { e with parent := some owner }).label member =
        m.label member := by
      refine label_modify (fun e => ?_) member
      rfl
    simp only [Bool.false_eq_true, if_false]
    rw [new, attach_eq_of_ne ne, ← kept]
    rfl

/-! ## What an addition changes -/

/-- One model has been made from the other by an addition: the member was free and is contained now,
and nothing else has changed. -/
structure Added (m m' : Model) (slot : Slot) (owner member : ElementId) : Prop where
  free : m.parent? member = none
  parent : m'.parent? member = some owner
  noted : (m.kind? member).any Kind.notesOwner → m'.noted? member = some owner
  held : m'.members slot owner = slot.grown (m.members slot owner) member
  keyed : (m'.table? slot owner).map OrderedMap.entries =
    (m.table? slot owner).map fun table => table.entries ++ [(m.label member, member)]
  owner_rest : (m'.get? owner).map (Element.emptied slot) = (m.get? owner).map (Element.emptied slot)
  member_rest : (m'.get? member).map Element.disowned = (m.get? member).map Element.disowned
  others : ∀ id, id ≠ owner → id ≠ member → m'.get? id = m.get? id

theorem added_attach (held : m.get? owner = some container) (there : m.get? member = some content)
    (ne : owner ≠ member) (on : slot.isOn container.kind) (free : content.parent = none)
    (newName : container.hasMemberNamed slot content.label = false) :
    Added m (m.attach slot owner member) slot owner member where
  free := (parent?_of_get? there).trans free
  parent := by rw [parent?_attach held there ne, if_pos rfl]
  noted notes := by
    rw [kind?_of_get? there] at notes
    rw [noted?_attach held there ne, if_pos rfl]
    exact Body.noted?_ownedBy notes owner
  held := by rw [members_attach held there ne on newName, if_pos ⟨rfl, rfl⟩]
  keyed := by
    rw [table?_attach held there ne, if_pos ⟨rfl, rfl⟩, label_of_get? there, table?_of_get? held]
    change (container.body.table? slot).any (·.contains content.label) = false at newName
    cases known : container.body.table? slot with
    | none => rfl
    | some table =>
      rw [known, Option.any_some] at newName
      simp [OrderedMap.entries_insert_new newName]
  owner_rest := by
    rw [get?_attach held there ne, if_neg ne, if_pos rfl, held]
    simp [Element.emptied_place]
  member_rest := by
    rw [get?_attach held there ne, if_pos rfl, there]
    simp [Element.disowned_ownedBy]
  others id notOwner notMember := by
    rw [get?_attach held there ne, if_neg notMember, if_neg notOwner]

section Unique

variable {n m' : Model}

/-- Two results agree on an id if they agree on a part of the element there which, with what else is
known, leaves only one element. -/
theorem get?_eq_of_map {id : ElementId} {f : Element → Element}
    (same : (n.get? id).map f = (m'.get? id).map f)
    (only : ∀ e e', n.get? id = some e → m'.get? id = some e' → f e = f e' → e = e') :
    n.get? id = m'.get? id := by
  cases left : n.get? id with
  | none =>
    rw [left, Option.map_none, eq_comm, Option.map_eq_none_iff] at same
    exact same.symm
  | some e =>
    rw [left, Option.map_some, eq_comm, Option.map_eq_some_iff] at same
    obtain ⟨e', right, part⟩ := same
    rw [right, only e e' left right part.symm]

namespace Added

theorem get?_owner_eq (added : Added m n slot owner member)
    (added' : Added m m' slot owner member) : n.get? owner = m'.get? owner := by
  refine get?_eq_of_map (added.owner_rest.trans added'.owner_rest.symm) fun e e' left right rest => ?_
  have held := added.held.trans added'.held.symm
  have keyed := added.keyed.trans added'.keyed.symm
  simp only [members, table?, body?, left, right, Option.map_some, Option.getD_some,
    Option.bind_some] at held keyed
  exact Element.eq_of_emptied rest held
    (Option.map_injective (fun _ _ => OrderedMap.eq_of_entries) keyed)

theorem kind?_member (added : Added m n slot owner member) : n.kind? member = m.kind? member := by
  simpa [kind?, Function.comp_def] using congrArg (Option.map Element.kind) added.member_rest

theorem noted?_member_eq (added : Added m n slot owner member)
    (added' : Added m m' slot owner member) : n.noted? member = m'.noted? member := by
  by_cases notes : (m.kind? member).any Kind.notesOwner
  · rw [added.noted notes, added'.noted notes]
  -- The other kinds have no place for a note.
  · have silent {n : Model} (added : Added m n slot owner member) : n.noted? member = none := by
      rw [← added.kind?_member] at notes
      unfold noted? body?
      cases there : n.get? member with
      | none => rfl
      | some e =>
        rw [kind?_of_get? there, Option.any_some, Bool.not_eq_true] at notes
        exact Body.noted?_eq_none notes
    rw [silent added, silent added']

theorem get?_member_eq (added : Added m n slot owner member)
    (added' : Added m m' slot owner member) : n.get? member = m'.get? member := by
  refine get?_eq_of_map (added.member_rest.trans added'.member_rest.symm)
    fun e e' left right rest => ?_
  have parent := added.parent.trans added'.parent.symm
  have noted := added.noted?_member_eq added'
  rw [parent?_of_get? left, parent?_of_get? right] at parent
  simp only [noted?, body?, left, right, Option.map_some, Option.bind_some] at noted
  exact Element.eq_of_disowned rest parent noted

/-- What is said of an addition leaves one model only. -/
theorem eq (added : Added m n slot owner member) (added' : Added m m' slot owner member) :
    n = m' := by
  refine eq_of_get? fun id => ?_
  by_cases atOwner : id = owner
  · rw [atOwner, added.get?_owner_eq added']
  · by_cases atMember : id = member
    · rw [atMember, added.get?_member_eq added']
    · rw [added.others id atOwner atMember, added'.others id atOwner atMember]

end Added

end Unique

/-- A successful addition makes the one model in which what is said of it has changed. -/
theorem added_iff {m' n : Model} (ok : m.add slot owner member = .ok m') :
    Added m n slot owner member ↔ n = m' := by
  obtain ⟨container, content, held, there, on, -, ne, free, newName, rfl⟩ := add_ok_iff.mp ok
  have added := added_attach held there ne on free newName
  refine ⟨fun other => other.eq added, ?_⟩
  rintro rfl
  exact added

/-! ## Details -/

section Details

variable {note : ElementId} {key value : String}

/-- Gives an annotation a detail, in place. -/
def addDetailInPlace (note : ElementId) (key value : String) : InPlace := do
  checkKnown note
  checkKind note "EAnnotation" (· = .eNote)
  write note fun e =>
    { e with body := e.body.mapNote fun a => { a with details := a.details.insert key value } }

/-- In place, a detail is added with the same outcome. -/
theorem gives_addDetailInPlace (m : Model) (note : ElementId) (key value : String) :
    Gives m (addDetailInPlace note key value) (m.addDetail note key value) := by
  unfold addDetailInPlace addDetail
  refine .known fun e there => .check ?_ rfl fun _ => ?_
  · simp [kind?, there]
  · rfl

/-- One model has been made from the other by a detail: the annotation has it now, and nothing else
has changed. -/
structure Detailed (m m' : Model) (note : ElementId) (key value : String) : Prop where
  detail : ∃ e a, m.get? note = some e ∧ e.body = .eNote a ∧
    m'.get? note = some { e with body := .eNote { a with details := a.details.insert key value } }
  others : ∀ id, id ≠ note → m'.get? id = m.get? id

theorem detailed_addDetail {m' : Model} (ok : m.addDetail note key value = .ok m') :
    Detailed m m' note key value := by
  obtain ⟨isNote, rfl⟩ := Construction.addDetail_ok_iff.mp ok
  obtain ⟨e, there, kind⟩ := Option.map_eq_some_iff.mp isNote
  refine ⟨?_, fun id other => ?_⟩
  · obtain ⟨a, body⟩ : ∃ a, e.body = .eNote a := by
      unfold Element.kind at kind
      cases known : e.body with
      | eNote a => exact ⟨a, rfl⟩
      | _ => simp [known, Body.kind] at kind
    refine ⟨e, a, there, body, ?_⟩
    simp [modifyBody, get?_modify, there, body, Body.mapNote]
  · rw [modifyBody, get?_modify, if_neg other]

end Details

/-- In place or not, an addition has one outcome. A failed one leaves the model as it was; one that
succeeds changes what it says and nothing else. -/
theorem additions_in_place (m : Model) :
    (∀ slot owner member,
      match (addInPlace slot owner member).run m with
      | .error e m' => m.add slot owner member = .error e ∧ m' = m
      | .ok () m' => m.add slot owner member = .ok m' ∧
          ∀ n, Added m n slot owner member ↔ n = m') ∧
    ∀ note key value,
      match (addDetailInPlace note key value).run m with
      | .error e m' => m.addDetail note key value = .error e ∧ m' = m
      | .ok () m' => m.addDetail note key value = .ok m' ∧ Detailed m m' note key value := by
  refine ⟨fun slot owner member => ?_, fun note key value => ?_⟩
  · rw [gives_addInPlace]
    cases outcome : m.add slot owner member with
    | error e => exact ⟨rfl, rfl⟩
    | ok m' => exact ⟨rfl, fun _ => added_iff outcome⟩
  · rw [gives_addDetailInPlace]
    cases outcome : m.addDetail note key value with
    | error e => exact ⟨rfl, rfl⟩
    | ok m' => exact ⟨rfl, detailed_addDetail outcome⟩

end Model

end Metamodel
