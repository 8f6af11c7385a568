import Metamodel.Proofs.Acceptance
import Metamodel.Proofs.Renaming

/-!
Documents that are built into one model do not meet.

Whatever a model holds, the events of a document make the same elements behind it as they make on
their own, or fail in the same way. Every step of a construction only looks at elements that the
construction has made: the open ones, their containers and the names in their tables. So each step
may be done on its own and then be put behind the model.

Results:
1. `describe_followedBy`: what errors say of an element behind another model.
2. `Construction.handle_behind`: one event behind another model.
3. `build_followedBy`: a whole document behind another model.
-/

namespace Metamodel

namespace Model

variable (m : Model) {c : Model}

/-! ## Lookups -/

theorem ownerChainWithin_followedBy (depth : Nat) (id : ElementId) :
    (m.followedBy c).ownerChainWithin depth (id.shift m.size) =
      (c.ownerChainWithin depth id).map (.shift m.size) := by
  induction depth generalizing id with
  | zero => rfl
  | succ depth ih =>
    rw [ownerChainWithin_succ, ownerChainWithin_succ, parent?_followedBy]
    cases c.parent? id with
    | none => rfl
    | some p => simpa using ih p

theorem pathSegment_followedBy (id : ElementId) :
    (m.followedBy c).pathSegment (id.shift m.size) = c.pathSegment id := by
  unfold pathSegment
  rw [get?_followedBy_shift]
  cases c.get? id with
  | none => rfl
  | some e => simp [Element.rename, Element.kind]

/-- The path of an element does not lead out of its own model. -/
theorem describe_followedBy (wf : c.WellFormed) {id : ElementId} {e : Element}
    (found : c.get? id = some e) :
    (m.followedBy c).describe (id.shift m.size) = c.describe id := by
  have chain : (m.followedBy c).ownerChain (id.shift m.size) =
      (c.ownerChain id).map (.shift m.size) := by
    rw [ownerChain, ownerChainWithin_followedBy, size_followedBy,
      (wf.ownerChain_eq found (Nat.le_add_left c.size m.size)).1]
  have path : (m.followedBy c).qualifiedName (id.shift m.size) = c.qualifiedName id := by
    simp [qualifiedName, chain, Function.comp_def, pathSegment_followedBy]
  rw [describe, describe, kind?_followedBy, path]

theorem require_of_get? {id : ElementId} {e : Element} (found : c.get? id = some e) :
    c.require id = .ok e := by
  simp [require, found]

theorem require_followedBy {id : ElementId} {e : Element} (found : c.get? id = some e) :
    (m.followedBy c).require (id.shift m.size) = .ok (e.rename (.shift m.size)) := by
  simp [require, get?_followedBy_shift, found]

theorem exists_get? {id : ElementId} (old : id.index < c.size) : ∃ e, c.get? id = some e :=
  ⟨_, Array.getElem?_eq_getElem old⟩

/-! ## Additions -/

/-- An addition behind another model is that addition, put behind the model. -/
theorem add_followedBy (wf : c.WellFormed) {slot : Slot} {owner member : ElementId}
    {container content : Element} (held : c.get? owner = some container)
    (there : c.get? member = some content) :
    (m.followedBy c).add slot (owner.shift m.size) (member.shift m.size) =
      (c.add slot owner member).map m.followedBy := by
  have parent : (content.rename (.shift m.size)).parent.isNone = content.parent.isNone :=
    Option.isNone_map
  unfold add
  rw [require_followedBy m held, require_followedBy m there, describe_followedBy m wf held,
    describe_followedBy m wf there, require_of_get? held, require_of_get? there]
  simp only [ok_bind, map_bind, Element.kind_rename, Element.label_rename,
    Element.hasMemberNamed_rename, parent, ne_eq, shift_inj, ← followedBy_attach]
  rfl

theorem addDetail_followedBy (wf : c.WellFormed) {note : ElementId} {e : Element}
    (found : c.get? note = some e) (key value : String) :
    (m.followedBy c).addDetail (note.shift m.size) key value =
      (c.addDetail note key value).map m.followedBy := by
  have edit : m.followedBy (c.modifyBody note
        (Body.mapNote fun a => { a with details := a.details.insert key value })) =
      (m.followedBy c).modifyBody (note.shift m.size)
        (Body.mapNote fun a => { a with details := a.details.insert key value }) :=
    followedBy_modifyBody m c fun b => by cases b <;> rfl
  unfold addDetail
  rw [require_followedBy m found, describe_followedBy m wf found, require_of_get? found]
  simp only [ok_bind, map_bind, Element.kind_rename, ← edit]
  rfl

end Model

def Frame.shift (count : Nat) : Frame → Frame
  | .element id => .element (id.shift count)
  | .details => .details

namespace Construction

variable (m : Model) {c : Construction}

/-- A construction behind a model. -/
def behind (c : Construction) : Construction where
  model := m.followedBy c.model
  frames := c.frames.map (Frame.shift m.size)
  root := c.root.map (.shift m.size)

/-- What a step leads to, behind a model. -/
def outcomeBehind : Except (Error × Construction) Construction →
    Except (Error × Construction) Construction
  | .ok c => .ok (c.behind m)
  | .error (error, c) => .error (error, c.behind m)

/-! ## Events -/

theorem innermost?_behind : (c.behind m).innermost? = c.innermost?.map (.shift m.size) := by
  obtain ⟨model, frames, root⟩ := c
  cases frames with
  | nil => rfl
  | cons frame outer => cases frame <;> rfl

theorem misplaced_behind (tag : String) (parent : Option ElementId) :
    (c.behind m).misplaced tag (parent.map (.shift m.size)) = c.misplaced tag parent := by
  cases parent with
  | none => rfl
  | some id => simp [misplaced, behind, Model.kind?_followedBy]

theorem meaning_behind (discriminator tag : String) (attributes : OrderedMap String)
    (parent : Option ElementId) :
    (c.behind m).meaning discriminator tag attributes (parent.map (.shift m.size)) =
      c.meaning discriminator tag attributes parent := by
  have outside : (c.behind m).misplaced tag none = c.misplaced tag none := rfl
  unfold meaning
  rw [Option.isNone_map, misplaced_behind, outside]

theorem failing_behind (result : Except Error Construction) :
    (c.behind m).failing (result.map (behind m)) = outcomeBehind m (c.failing result) := by
  cases result <;> rfl

theorem openDetail_behind (sound : c.Sound) (attributes : OrderedMap String) :
    (c.behind m).openDetail attributes (c.behind m).innermost? =
      (c.openDetail attributes c.innermost?).map (behind m) := by
  rw [innermost?_behind]
  cases inner : c.innermost? with
  | none => rfl
  | some note =>
    obtain ⟨outer, frames⟩ := frames_of_innermost? inner
    obtain ⟨e, found⟩ := Model.exists_get? (sound.opened note (frames ▸ List.mem_cons_self))
    have added (key value : String) :
        (c.behind m).model.addDetail (note.shift m.size) key value =
          (c.model.addDetail note key value).map m.followedBy :=
      Model.addDetail_followedBy m sound.wellFormed found key value
    simp only [openDetail, Option.map_some, added, map_bind]
    cases detail attributes with
    | error error => rfl
    | ok entry =>
      rw [ok_bind, ok_bind]
      cases c.model.addDetail note entry.1 entry.2 <;> rfl

theorem openElement_behind (sound : c.Sound) (discriminator : String)
    (attributes : OrderedMap String) (kind : Kind) (slot : Option Slot) :
    (c.behind m).openElement discriminator attributes (c.behind m).innermost? kind slot =
      outcomeBehind m (c.openElement discriminator attributes c.innermost? kind slot) := by
  have new : (c.behind m).model.nextId = c.model.nextId.shift m.size :=
    Model.nextId_followedBy m c.model
  have appliedBehind : Element.applyAttributes discriminator attributes.entries
      (.blank (c.model.nextId.shift m.size) kind) =
        Element.renameOutcome (.shift m.size) (Element.applyAttributes discriminator
          attributes.entries (.blank c.model.nextId kind)) := by
    rw [← Element.rename_blank, Element.rename_applyAttributes]
  have appended (e : Element) : (c.behind m).model.append (e.rename (.shift m.size)) =
      m.followedBy (c.model.append e) := (Model.followedBy_append m c.model e).symm
  have detached := Element.detached_afterAttributes discriminator attributes.entries
    c.model.nextId kind
  unfold Element.afterAttributes at detached
  rw [innermost?_behind]
  cases applied : Element.applyAttributes discriminator attributes.entries
      (.blank c.model.nextId kind) with
  | error failure =>
    simp only [openElement, new, appliedBehind, applied, Element.renameOutcome, appended]
    rfl
  | ok e =>
    simp only [applied] at detached
    simp only [openElement, new, appliedBehind, applied, Element.renameOutcome, appended]
    cases inner : c.innermost? with
    | none => rfl
    | some owner =>
      cases slot with
      | none => rfl
      | some slot =>
        have wf := Model.wellFormed_append sound.wellFormed detached
        obtain ⟨outer, frames⟩ := frames_of_innermost? inner
        have old := sound.opened owner (frames ▸ List.mem_cons_self)
        have old' : owner.index < (c.model.append e).size := by
          simpa using Nat.lt_succ_of_lt old
        obtain ⟨container, held⟩ := Model.exists_get? old'
        have there : (c.model.append e).get? c.model.nextId = some e := by
          rw [Model.get?_append, if_pos rfl]
        -- Owner and member are there on either side, so both additions look at the same.
        have added : (m.followedBy (c.model.append e)).add slot (owner.shift m.size)
            (c.model.nextId.shift m.size) =
              ((c.model.append e).add slot owner c.model.nextId).map m.followedBy :=
          Model.add_followedBy m wf held there
        simp only [Option.map_some, added]
        cases (c.model.append e).add slot owner c.model.nextId <;> rfl

theorem handleOpening_behind (sound : c.Sound) (discriminator tag : String)
    (attributes : OrderedMap String) :
    (c.behind m).handleOpening discriminator tag attributes =
      outcomeBehind m (c.handleOpening discriminator tag attributes) := by
  cases closed : c.root with
  | some root => simp [handleOpening, behind, closed, outcomeBehind]
  | none =>
    have closedBehind : (c.behind m).root = none := by simp [behind, closed]
    by_cases inDetail : c.frames.head? = some .details
    · obtain ⟨outer, frames⟩ := List.head?_eq_some_iff.mp inDetail
      simp [handleOpening, behind, closed, frames, Frame.shift, outcomeBehind]
    · have inElement : (c.behind m).frames.head? ≠ some .details := by
        intro top
        obtain ⟨frame, there, same⟩ : ∃ frame, c.frames.head? = some frame ∧
            frame.shift m.size = .details := by
          simpa [behind, List.head?_map] using top
        cases frame with
        | element id => cases same
        | details => exact inDetail there
      rw [handleOpening_eq closed inDetail, handleOpening_eq closedBehind inElement,
        openDetail_behind m sound, failing_behind]
      split
      · rfl
      · rw [innermost?_behind, meaning_behind, ← innermost?_behind]
        cases c.meaning discriminator tag attributes c.innermost? with
        | error error => rfl
        | ok meaning => exact openElement_behind m sound discriminator attributes _ _

theorem handleClosing_behind : (c.behind m).handleClosing = outcomeBehind m c.handleClosing := by
  obtain ⟨model, frames, root⟩ := c
  rcases frames with _ | ⟨frame, _ | ⟨next, outer⟩⟩
  · rfl
  · cases frame <;> rfl
  · cases frame <;> rfl

/-- An event behind a model leads to what it leads to alone. -/
theorem handle_behind (sound : c.Sound) (discriminator : String) (event : Event) :
    (c.behind m).handle discriminator event = outcomeBehind m (c.handle discriminator event) := by
  cases event with
  | opening tag attributes => exact handleOpening_behind m sound discriminator tag attributes
  | closing => exact handleClosing_behind m

theorem foldlM_behind (sound : c.Sound) (discriminator : String) (events : List Event) :
    events.foldlM (handle discriminator) (c.behind m) =
      outcomeBehind m (events.foldlM (handle discriminator) c) := by
  induction events generalizing c with
  | nil => rfl
  | cons event rest ih =>
    rw [List.foldlM_cons, List.foldlM_cons, handle_behind m sound]
    cases accepted : c.handle discriminator event with
    | error failure => rfl
    | ok next => exact ih (sound.handle accepted)

theorem finish_behind : (c.behind m).finish = c.finish.map (.shift m.size) := by
  obtain ⟨model, frames, root⟩ := c
  cases frames with
  | nil => cases root <;> rfl
  | cons frame outer => simp [finish, behind, depth, Except.map]

theorem sound_empty : Sound { model := {} } where
  wellFormed := Model.wellFormed_empty
  opened _ there := nomatch there

end Construction

namespace Model

/-- What building a document alone leads to, put behind a model. -/
def buildBehind (m : Model) :
    Except (Error × Model) (Model × ElementId) → Except (Error × Model) (Model × ElementId)
  | .ok (made, root) => .ok (m.followedBy made, root.shift m.size)
  | .error (error, made) => .error (error, m.followedBy made)

/-- A document that is built into a model leads to what it leads to alone: the same elements under
ids behind those of the model, and the same root or error. What the model held stays as it was. -/
theorem build_followedBy (m : Model) (discriminator : String) (events : List Event)
    (fault : Option Error) :
    m.build discriminator events fault =
        m.buildBehind (({} : Model).build discriminator events fault) ∧
      ∀ made : Model, (m.followedBy made).size = m.size + made.size ∧
        (∀ id, id.index < m.size → (m.followedBy made).get? id = m.get? id) ∧
        ∀ id, (m.followedBy made).get? (id.shift m.size) =
          (made.get? id).map (Element.rename (.shift m.size)) := by
  refine ⟨?_, fun made => ⟨size_followedBy m made,
    fun id => get?_followedBy_of_lt m made, get?_followedBy_shift m made⟩⟩
  have start : Construction.behind m { model := {} } = { model := m } := by
    simp [Construction.behind, followedBy_empty]
  unfold build
  rw [← start, Construction.foldlM_behind m Construction.sound_empty]
  cases events.foldlM (Construction.handle discriminator) { model := {} } with
  | error failure => rfl
  | ok c =>
    simp only [Construction.outcomeBehind, Construction.finish_behind]
    cases fault with
    | some error => rfl
    | none => cases c.finish <;> rfl

end Model

end Metamodel
