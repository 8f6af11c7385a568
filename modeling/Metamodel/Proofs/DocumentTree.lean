import Metamodel.Proofs.Acceptance
import Metamodel.Proofs.Nesting

/-!
A document that is built gives the tree that it writes.

Building on a model numbers the elements in the order of their starts, behind the elements that were
there. While events are taken, the open frames are those of the starts that the events leave open,
so the container of a new element is the element of the innermost open start, which encloses it.
Once the outermost start has been closed nothing is accepted any more.

Results:
1. `Construction.Traced.accepts`: what an accepted event adds to the elements and the frames.
2. `Model.build_tree`: what a document that is built leaves, and that it is one tree.
-/

namespace Metamodel

namespace Body

/-- A body without the elements that it holds, its owner and the details of an annotation: all that
later events may change is left blank. -/
def written : Body → Body
  | .ePackage p => .ePackage
      { p with classes := ∅, dataTypes := ∅, subpackages := ∅, package := none }
  | .eClass c => .eClass
      { c with
        typeParameters := [], package := none, attributes := [], references := [], operations := []
        genericSuperTypes := [] }
  | .eDataType d => .eDataType { d with typeParameters := [], package := none }
  | .eEnum e => .eEnum { e with typeParameters := [], package := none, literals := [] }
  | .eEnumLiteral l => .eEnumLiteral { l with owner := none }
  | .eAttribute a => .eAttribute { a with genericType := none, containingClass := none }
  | .eReference r => .eReference { r with genericType := none, containingClass := none }
  | .eOperation o => .eOperation
      { o with
        genericType := none, parameters := [], typeParameters := [], containingClass := none }
  | .eParameter p => .eParameter { p with genericType := none, operation := none }
  | .eTypeParameter _ => .eTypeParameter {}
  | .eNote a => .eNote { a with details := ∅ }
  | .eGenericType g => .eGenericType
      { g with lowerBound := none, upperBound := none, typeArguments := [] }

theorem kind_written (b : Body) : b.written.kind = b.kind := by
  cases b <;> rfl

theorem written_place (slot : Slot) (name : String) (member : ElementId) (b : Body) :
    (b.place slot name member).written = b.written := by
  cases b <;> cases slot <;> rfl

theorem written_ownedBy (owner : ElementId) (b : Body) : (b.ownedBy owner).written = b.written := by
  cases b <;> rfl

theorem written_mapDetails (f : OrderedMap String → OrderedMap String) (b : Body) :
    (b.mapNote fun a => { a with details := f a.details }).written = b.written := by
  cases b <;> rfl

end Body

namespace Element

/-- What the start of an element determines: all but its containment and its details. -/
def written (e : Element) : Element :=
  { e with parent := none, annotations := [], body := e.body.written }

theorem written_place (slot : Slot) (name : String) (member : ElementId) (e : Element) :
    (e.place slot name member).written = e.written := by
  unfold place
  split <;> simp [written, Body.written_place]

theorem written_ownedBy (owner : ElementId) (e : Element) :
    (e.ownedBy owner).written = e.written := by
  simp [written, ownedBy, Body.written_ownedBy]

theorem bare_of_applyAttributes {skip : String} {attributes : List (String × String)}
    {e e' : Element} (applied : applyAttributes skip attributes e = .ok e') : e'.bare = e.bare := by
  simpa [afterAttributes, applied] using bare_applyAttributes skip attributes e

theorem kind_of_bare {e e' : Element} (same : e'.bare = e.bare) : e'.kind = e.kind := by
  have key := congrArg Element.kind same
  simpa [bare, kind] using key

end Element

/-! ## Elements and starts -/

/-- The element that a start creates when its document is built on `m`. -/
def Model.idOf (m : Model) (s : Start) : ElementId := ⟨m.size + created s.before⟩

namespace Start

/-- The kind of what a start creates: outermost a package, further inside what the tag means. -/
def HasKind (discriminator : String) (s : Start) (kind : Kind) : Prop :=
  (s.before = [] ∧ s.tag = "EPackage" ∧ kind = .ePackage) ∨
    (s.before ≠ [] ∧ ∃ meaning,
      TagMeaning.of discriminator s.tag s.attributes = .ok (some meaning) ∧ kind = meaning.kind)

/-- The element has the id, the kind and the attributes that the start gives it. -/
def Makes (discriminator : String) (s : Start) (id : ElementId) (e : Element) : Prop :=
  ∃ kind applied, s.HasKind discriminator kind ∧
    Element.applyAttributes discriminator s.attributes.entries (.blank id kind) = .ok applied ∧
    e.written = applied.written

/-- The model has what the start creates, in the element of the enclosing start. -/
structure Stands (m : Model) (discriminator : String) (m' : Model) (s : Start) : Prop where
  makes : s.event.creates → ∃ e, m'.get? (m.idOf s) = some e ∧ s.Makes discriminator (m.idOf s) e
  first : s.before = [] → s.event.creates ∧ m'.parent? (m.idOf s) = none
  inner : s.before ≠ [] → ∃ outer : Start, outer.Encloses s ∧ outer.event.creates ∧
    (s.event.creates → m'.parent? (m.idOf s) = some (m.idOf outer))

/-- The frame of an open start. -/
def frame (m : Model) (s : Start) : Frame :=
  if s.event.creates then .element (m.idOf s) else .details

theorem eq_mk {s : Start} {events : List Event} {tag : String} {attributes : OrderedMap String}
    (last : s.before = events) (same : s.event = .opening tag attributes) :
    s = ⟨events, tag, attributes⟩ := by
  obtain ⟨before, tag', attributes'⟩ := s
  cases last
  cases same
  rfl

theorem frame_of_creates {m : Model} {s : Start} (creates : s.event.creates) :
    s.frame m = .element (m.idOf s) := if_pos creates

theorem frame_of_not_creates {m : Model} {s : Start} (creates : ¬ s.event.creates) :
    s.frame m = .details := if_neg creates

theorem creates_of_frame {m : Model} {s : Start} {id : ElementId}
    (top : s.frame m = .element id) : s.event.creates ∧ m.idOf s = id := by
  unfold frame at top
  split at top
  · next creates => exact ⟨creates, Frame.element.inj top⟩
  · cases top

end Start

namespace Model

variable {m m' m'' : Model} {discriminator : String} {events : List Event}

theorem ne_nextId {id : ElementId} (old : id.index < m.size) : id ≠ m.nextId := by
  rintro rfl
  exact Nat.lt_irrefl m.size old

theorem ne_idOf {id : ElementId} (old : id.index < m.size) (s : Start) : id ≠ m.idOf s := by
  rintro rfl
  exact absurd old (Nat.not_lt.mpr (Nat.le_add_right m.size _))

theorem get?_append_of_lt {e : Element} {id : ElementId} (old : id.index < m.size) :
    (m.append e).get? id = m.get? id := by
  rw [get?_append, if_neg (ne_nextId old)]

theorem parent?_append_of_lt {e : Element} {id : ElementId} (old : id.index < m.size) :
    (m.append e).parent? id = m.parent? id := by
  rw [parent?, get?_append_of_lt old, parent?]

theorem written_attach {slot : Slot} {owner member : ElementId} {container content : Element}
    (held : m.get? owner = some container) (free : m.get? member = some content)
    (ne : owner ≠ member) (id : ElementId) :
    ((m.attach slot owner member).get? id).map Element.written =
      (m.get? id).map Element.written := by
  rw [get?_attach held free ne]
  split
  · next isMember => simp [isMember, free, Element.written_ownedBy]
  · split
    · next isOwner => simp [isOwner, held, Element.written_place]
    · rfl

theorem written_modifyBody {note : ElementId} {f : Body → Body}
    (keeps : ∀ b, (f b).written = b.written) (id : ElementId) :
    ((m.modifyBody note f).get? id).map Element.written = (m.get? id).map Element.written :=
  map_get?_modifyBody (fun e => by simp [Element.written, keeps]) id

theorem parent?_modifyBody (note : ElementId) (f : Body → Body) (id : ElementId) :
    (m.modifyBody note f).parent? id = m.parent? id := by
  have key : ((m.modifyBody note f).get? id).map (·.parent) = (m.get? id).map (·.parent) :=
    map_get?_modifyBody (fun _ => rfl) id
  unfold parent?
  cases hm : m.get? id <;> cases hm' : (m.modifyBody note f).get? id <;> simp_all

/-- The first model has been extended by the elements of these events. -/
structure Grown (m : Model) (discriminator : String) (events : List Event) (m' : Model) :
    Prop where
  kept : ∀ id : ElementId, id.index < m.size → m'.get? id = m.get? id
  size : m'.size = m.size + created events
  stands : ∀ s : Start, s.In events → s.Stands m discriminator m'

theorem grown_nil (m : Model) (discriminator : String) : m.Grown discriminator [] m where
  kept _ _ := rfl
  size := rfl
  stands _ inside := absurd rfl inside.ne_nil

/-- What starts create stays, whatever else changes. -/
theorem stands_congr {s : Start} (stands : s.Stands m discriminator m')
    (written : (m''.get? (m.idOf s)).map Element.written =
      (m'.get? (m.idOf s)).map Element.written)
    (parent : m''.parent? (m.idOf s) = m'.parent? (m.idOf s)) :
    s.Stands m discriminator m'' where
  makes creates := by
    obtain ⟨e, found, kind, applied, meant, attributes, same⟩ := stands.makes creates
    rw [found, Option.map_some] at written
    obtain ⟨e', found', same'⟩ := Option.map_eq_some_iff.mp written
    exact ⟨e', found', kind, applied, meant, attributes, same'.trans same⟩
  first outermost := parent ▸ stands.first outermost
  inner within := parent ▸ stands.inner within

theorem Grown.lt_size (grown : m.Grown discriminator events m') {id : ElementId}
    (old : id.index < m.size) : id.index < m'.size := by
  rw [grown.size]
  omega

theorem Grown.idOf_lt (grown : m.Grown discriminator events m') {s : Start} (inside : s.In events)
    (creates : s.event.creates) : (m.idOf s).index < m'.size := by
  have before := inside.created_lt creates
  change m.size + created s.before < m'.size
  rw [grown.size]
  omega

/-- One more event: it keeps the elements, and what it creates stands where it should. -/
theorem Grown.extend (grown : m.Grown discriminator events m') {event : Event}
    (kept : ∀ id : ElementId, id.index < m.size → m''.get? id = m'.get? id)
    (size : m''.size = m'.size + created [event])
    (written : ∀ id : ElementId, id.index < m'.size →
      (m''.get? id).map Element.written = (m'.get? id).map Element.written)
    (parent : ∀ id : ElementId, id.index < m'.size → m''.parent? id = m'.parent? id)
    (new : ∀ s : Start, s.before = events → s.event = event → s.Stands m discriminator m'') :
    m.Grown discriminator (events ++ [event]) m'' where
  kept id old := (kept id old).trans (grown.kept id old)
  size := by
    rw [size, grown.size, created_append]
    omega
  stands s inside := by
    rcases Start.in_append_singleton.mp inside with before | ⟨last, same⟩
    · have stands := grown.stands s before
      by_cases creates : s.event.creates
      · have old := grown.idOf_lt before creates
        exact stands_congr stands (written _ old) (parent _ old)
      · -- A detail has no element that could change.
        exact
          { makes := fun does => absurd does creates
            first := fun outermost => absurd (stands.first outermost).1 creates
            inner := fun within => by
              obtain ⟨outer, encloses, creator, -⟩ := stands.inner within
              exact ⟨outer, encloses, creator, fun does => absurd does creates⟩ }
    · exact new s last same

end Model

/-! ## Events -/

namespace Construction

variable {m : Model} {discriminator : String} {events : List Event} {c c' : Construction}

/-- What has been built from the events, and what they leave open. -/
structure Traced (m : Model) (discriminator : String) (events : List Event) (c : Construction) :
    Prop where
  grown : m.Grown discriminator events c.model
  stage : (c.root = none ∧ ∃ starts, Unclosed events starts ∧ c.frames = starts.map (·.frame m)) ∨
    (IsTree events ∧ c.frames = [] ∧ c.root = some m.nextId)

theorem traced_nil (m : Model) (discriminator : String) :
    Traced m discriminator [] { model := m } where
  grown := m.grown_nil discriminator
  stage := .inl ⟨rfl, [], .none, rfl⟩

namespace Traced

/-- Before the root has been closed, the frames are those of the open starts. -/
theorem unclosed (traced : c.Traced m discriminator events) (noRoot : c.root = none) :
    ∃ starts, Unclosed events starts ∧ c.frames = starts.map (·.frame m) := by
  rcases traced.stage with ⟨-, starts, unclosed, frames⟩ | ⟨-, -, root⟩
  · exact ⟨starts, unclosed, frames⟩
  · rw [noRoot] at root
    cases root

/-- While something is open, the root has not been closed. -/
theorem noRoot (traced : c.Traced m discriminator events) (isOpen : c.frames ≠ []) :
    c.root = none := by
  rcases traced.stage with ⟨noRoot, -⟩ | ⟨-, frames, -⟩
  · exact noRoot
  · exact absurd frames isOpen

theorem nextId (traced : c.Traced m discriminator events) {s : Start} (last : s.before = events) :
    c.model.nextId = m.idOf s := by
  rw [Model.nextId, traced.grown.size, Model.idOf, last]

/-- The element that is innermost open is that of the start that encloses the next one. -/
theorem innermost (traced : c.Traced m discriminator events) (noRoot : c.root = none)
    {id : ElementId} {outer : List Frame} (frames : c.frames = .element id :: outer) :
    ∃ s starts, Unclosed events (s :: starts) ∧ s.event.creates ∧ m.idOf s = id ∧
      s.In events ∧ c.frames = (s :: starts).map (·.frame m) := by
  obtain ⟨starts, unclosed, same⟩ := traced.unclosed noRoot
  cases starts with
  | nil =>
    rw [same] at frames
    cases frames
  | cons s starts =>
    have top := same.symm.trans frames
    rw [List.map_cons] at top
    obtain ⟨creates, isId⟩ := Start.creates_of_frame (List.cons.inj top).1
    exact ⟨s, starts, unclosed, creates, isId, unclosed.inside, same⟩

theorem package (traced : c.Traced m discriminator events) {attributes : OrderedMap String}
    {e : Element} (noRoot : c.root = none) (frames : c.frames = [])
    (applied : Element.applyAttributes discriminator attributes.entries
      (.blank c.model.nextId .ePackage) = .ok e) :
    Traced m discriminator (events ++ [.opening "EPackage" attributes])
      { c with model := c.model.append e, frames := [.element c.model.nextId] } := by
  obtain ⟨starts, unclosed, same⟩ := traced.unclosed noRoot
  -- Nothing is open and no root has been closed, so there was no event before.
  obtain rfl : starts = [] := List.map_eq_nil_iff.mp (same.symm.trans frames)
  obtain rfl := unclosed.eq_nil
  have creates : (Event.opening "EPackage" attributes).creates := by simp [Event.creates]
  have bare := Element.bare_of_applyAttributes applied
  refine ⟨traced.grown.extend ?kept ?size ?written ?parent ?new, .inl ⟨noRoot, _,
    unclosed.opening "EPackage" attributes, ?_⟩⟩
  case kept => exact fun id old => Model.get?_append_of_lt (traced.grown.lt_size old)
  case size => rw [Model.size_append, created_singleton, if_pos creates]
  case written => exact fun id old => by rw [Model.get?_append_of_lt old]
  case parent => exact fun id old => Model.parent?_append_of_lt old
  case new =>
    intro s last isOpening
    have isNext := traced.nextId last
    obtain rfl := Start.eq_mk last isOpening
    have there : (c.model.append e).get? c.model.nextId = some e := by
      rw [Model.get?_append, if_pos rfl]
    rw [isNext] at there applied
    refine ⟨fun _ => ⟨e, there, .ePackage, e, .inl ⟨rfl, rfl, rfl⟩, applied, rfl⟩,
      fun _ => ⟨creates, ?_⟩, fun within => absurd rfl within⟩
    rw [Model.parent?, there]
    exact (congrArg Element.parent bare : e.parent = none)
  · rw [List.map_cons, Start.frame_of_creates (s := ⟨_, _, _⟩) creates, ← traced.nextId rfl,
      List.map_nil]

theorem member (traced : c.Traced m discriminator events) {tag : String}
    {attributes : OrderedMap String} {meaning : TagMeaning} {owner : ElementId}
    {outer : List Frame} {e : Element} {model : Model} (notDetail : tag ≠ "details")
    (noRoot : c.root = none) (frames : c.frames = .element owner :: outer)
    (known : TagMeaning.of discriminator tag attributes = .ok (some meaning))
    (applied : Element.applyAttributes discriminator attributes.entries
      (.blank c.model.nextId meaning.kind) = .ok e)
    (added : (c.model.append e).add meaning.slot owner c.model.nextId = .ok model) :
    Traced m discriminator (events ++ [.opening tag attributes])
      { c with model, frames := .element c.model.nextId :: c.frames } := by
  obtain ⟨s, starts, unclosed, creates, rfl, inside, same⟩ := traced.innermost noRoot frames
  obtain ⟨container, content, held, there, -, -, ne, -, -, rfl⟩ := Model.add_ok_iff.mp added
  -- The element goes into the innermost open one, which is the only old one that changes.
  have isContent : e = content := by
    rw [Model.get?_append, if_pos rfl] at there
    exact Option.some.inj there
  subst isContent
  have opens : (Event.opening tag attributes).creates := by simpa [Event.creates] using notDetail
  refine ⟨traced.grown.extend ?kept ?size ?written ?parent ?new, .inl ⟨noRoot, _,
    unclosed.opening tag attributes, ?_⟩⟩
  case kept =>
    intro id old
    have old' := traced.grown.lt_size old
    rw [Model.get?_attach held there ne, if_neg (Model.ne_nextId old'),
      if_neg (Model.ne_idOf old s), Model.get?_append_of_lt old']
  case size =>
    rw [size_of_add added, Model.size_append, created_singleton, if_pos opens]
  case written =>
    intro id old
    rw [Model.written_attach held there ne, Model.get?_append_of_lt old]
  case parent =>
    intro id old
    rw [Model.parent?_attach held there ne, if_neg (Model.ne_nextId old),
      Model.parent?_append_of_lt old]
  case new =>
    intro new last isOpening
    have isNext := traced.nextId last
    obtain rfl := Start.eq_mk last isOpening
    refine ⟨fun _ => ?makes, fun outermost => absurd outermost inside.ne_nil,
      fun _ => ⟨s, unclosed.encloses, creates, fun _ => ?parent⟩⟩
    case makes =>
      rw [isNext] at applied
      refine ⟨e.ownedBy (m.idOf s), ?_, meaning.kind, e, .inr ⟨inside.ne_nil, meaning, known, rfl⟩,
        applied, Element.written_ownedBy _ e⟩
      rw [← isNext, Model.get?_attach held there ne, if_pos rfl]
    case parent => rw [← isNext, Model.parent?_attach held there ne, if_pos rfl]
  · rw [List.map_cons, Start.frame_of_creates (s := ⟨_, _, _⟩) opens,
      ← traced.nextId (s := ⟨events, tag, attributes⟩) rfl, same]

theorem detail (traced : c.Traced m discriminator events) {attributes : OrderedMap String}
    {note : ElementId} {outer : List Frame} {key value : String} {model : Model}
    (noRoot : c.root = none) (frames : c.frames = .element note :: outer)
    (added : c.model.addDetail note key value = .ok model) :
    Traced m discriminator (events ++ [.opening "details" attributes])
      { c with model, frames := .details :: c.frames } := by
  obtain ⟨s, starts, unclosed, creates, rfl, inside, same⟩ := traced.innermost noRoot frames
  obtain ⟨-, rfl⟩ := addDetail_ok_iff.mp added
  have opens : ¬ (Event.opening "details" attributes).creates := by simp [Event.creates]
  refine ⟨traced.grown.extend ?kept ?size ?written ?parent ?new, .inl ⟨noRoot, _,
    unclosed.opening "details" attributes, ?_⟩⟩
  case kept =>
    intro id old
    rw [Model.modifyBody, Model.get?_modify, if_neg (Model.ne_idOf old s)]
  case size =>
    rw [Model.modifyBody, Model.size_modify, created_singleton, if_neg opens, Nat.add_zero]
  case written =>
    exact fun id _ => Model.written_modifyBody (Body.written_mapDetails (·.insert key value)) id
  case parent => exact fun id _ => Model.parent?_modifyBody _ _ id
  case new =>
    intro new last isOpening
    obtain rfl := Start.eq_mk last isOpening
    exact ⟨fun does => absurd does opens, fun outermost => absurd outermost inside.ne_nil,
      fun _ => ⟨s, unclosed.encloses, creates, fun does => absurd does opens⟩⟩
  · rw [List.map_cons, Start.frame_of_not_creates (s := ⟨_, _, _⟩) opens, same]

/-- An end changes no element. -/
theorem grown_closing (traced : c.Traced m discriminator events) :
    m.Grown discriminator (events ++ [.closing]) c.model :=
  traced.grown.extend (fun _ _ => rfl) rfl (fun _ _ => rfl) (fun _ _ => rfl)
    fun _ _ isClosing => nomatch isClosing

theorem close (traced : c.Traced m discriminator events) {frame : Frame} {outer : List Frame}
    (frames : c.frames = frame :: outer) (inner : outer ≠ [] ∨ frame = .details) :
    Traced m discriminator (events ++ [.closing]) { c with frames := outer } := by
  have noRoot := traced.noRoot (frames ▸ List.cons_ne_nil _ _)
  obtain ⟨starts, unclosed, same⟩ := traced.unclosed noRoot
  rw [frames] at same
  cases starts with
  | nil => cases same
  | cons s starts =>
    obtain ⟨isTop, isOuter⟩ := List.cons.inj same
    cases starts with
    | nil =>
      rcases inner with more | isDetail
      · exact absurd isOuter more
      · -- The outermost start creates the root, so its frame is not that of a detail.
        have stands := traced.grown.stands s unclosed.inside
        have creates := (stands.first unclosed.outermost).1
        exact nomatch isDetail.symm.trans (isTop.trans (Start.frame_of_creates creates))
    | cons s' starts =>
      exact ⟨traced.grown_closing, .inl ⟨noRoot, _, unclosed.closing, isOuter⟩⟩

theorem closeRoot (traced : c.Traced m discriminator events) {id : ElementId}
    (frames : c.frames = [.element id]) :
    Traced m discriminator (events ++ [.closing]) { c with frames := [], root := some id } := by
  have noRoot := traced.noRoot (frames ▸ List.cons_ne_nil _ _)
  obtain ⟨s, starts, unclosed, creates, rfl, -, same⟩ := traced.innermost noRoot frames
  obtain rfl : starts = [] := by
    rw [frames] at same
    exact List.map_eq_nil_iff.mp (List.cons.inj same).2.symm
  refine ⟨traced.grown_closing, .inr ⟨unclosed.last, rfl, ?_⟩⟩
  rw [Model.idOf, unclosed.outermost]
  rfl

theorem accepts (traced : c.Traced m discriminator events) {event : Event}
    (accepted : c.Accepts discriminator event c') :
    c'.Traced m discriminator (events ++ [event]) := by
  cases accepted with
  | package noRoot frames applied => exact traced.package noRoot frames applied
  | member notDetail noRoot frames known applied added =>
    exact traced.member notDetail noRoot frames known applied added
  | detail noRoot frames added => exact traced.detail noRoot frames added
  | close frames inner => exact traced.close frames inner
  | closeRoot frames => exact traced.closeRoot frames

end Traced

/-- What events leave that are accepted one after the other. -/
theorem traced_foldlM (m : Model) (discriminator : String)
    (accepted : events.foldlM (handle discriminator) { model := m } = .ok c) :
    c.Traced m discriminator events := by
  induction events using List.reverseRecOn generalizing c with
  | nil =>
    cases accepted
    exact traced_nil m discriminator
  | append_singleton events event ih =>
    rw [List.foldlM_append] at accepted
    obtain ⟨before, run, last⟩ := bind_ok_iff.mp accepted
    rw [List.foldlM_cons] at last
    obtain ⟨next, handled, done⟩ := bind_ok_iff.mp last
    cases done
    exact (ih run).accepts (accepts_of_handle handled)

end Construction

/-! ## Documents -/

namespace Model

variable {m m' : Model} {root : ElementId} {discriminator : String} {events : List Event}
  {fault : Option Error}

/-- The first model has been extended by the tree of a document: behind the elements that were there
stand those of its starts, in their order, each in the element of the start that encloses it. -/
structure GrownTree (m : Model) (discriminator : String) (events : List Event) (m' : Model)
    (root : ElementId) : Prop where
  isTree : IsTree events
  kept : ∀ id : ElementId, id.index < m.size → m'.get? id = m.get? id
  size : m'.size = m.size + created events
  makes : ∀ s : Start, s.In events → s.event.creates →
    ∃ e, m'.get? (m.idOf s) = some e ∧ s.Makes discriminator (m.idOf s) e
  made : ∀ id : ElementId, m.size ≤ id.index → id.index < m'.size →
    ∃! s : Start, s.In events ∧ s.event.creates ∧ m.idOf s = id
  first : root = m.nextId ∧ m'.isPackage root ∧ m'.parent? root = none
  parent : ∀ s : Start, s.In events → s.event.creates → m.idOf s ≠ root →
    ∃ outer : Start, outer.Encloses s ∧ (∀ other : Start, other.Encloses s → other = outer) ∧
      outer.In events ∧ outer.event.creates ∧ (m.idOf outer).index < (m.idOf s).index ∧
      m'.parent? (m.idOf s) = some (m.idOf outer)
  chain : ∀ id : ElementId, m.size ≤ id.index → id.index < m'.size → m'.OnChain id root

namespace Grown

variable (grown : m.Grown discriminator events m')

include grown

theorem isPackage_first (isTree : IsTree events) :
    m'.isPackage m.nextId ∧ m'.parent? m.nextId = none := by
  obtain ⟨tag, attributes, inner, -, whole⟩ := isTree
  have inside : (⟨[], tag, attributes⟩ : Start).In events := ⟨_, whole⟩
  have stands := grown.stands _ inside
  obtain ⟨creates, noParent⟩ := stands.first rfl
  obtain ⟨e, found, kind, applied, meant, accepted, same⟩ := stands.makes creates
  have isFirst : m.idOf ⟨[], tag, attributes⟩ = m.nextId := rfl
  rw [isFirst] at found noParent
  have isPackage : kind = .ePackage := by
    rcases meant with ⟨-, -, isPackage⟩ | ⟨within, -⟩
    · exact isPackage
    · exact absurd rfl within
  have kept : e.kind = applied.kind := by
    have key := congrArg Element.kind same
    simpa [Element.written, Element.kind, Body.kind_written] using key
  rw [Element.kind_of_bare (Element.bare_of_applyAttributes accepted), isPackage] at kept
  have isEPackage : e.kind = .ePackage := kept.trans (Body.kind_blank .ePackage)
  exact ⟨by simp [Model.isPackage, kind?, found, isEPackage], noParent⟩

theorem made (id : ElementId) (new : m.size ≤ id.index) (there : id.index < m'.size) :
    ∃! s : Start, s.In events ∧ s.event.creates ∧ m.idOf s = id := by
  rw [grown.size] at there
  have less : id.index - m.size < created events := by omega
  obtain ⟨s, inside, creates, counted⟩ := Start.exists_created_eq less
  have isId : m.idOf s = id := by
    rw [idOf, counted, Nat.add_sub_cancel' new]
  refine ⟨s, ⟨inside, creates, isId⟩, ?_⟩
  rintro s' ⟨inside', creates', isId'⟩
  refine Start.eq_of_created_eq inside' creates' inside creates ?_
  have same := congrArg ElementId.index (isId'.trans isId.symm)
  exact Nat.add_left_cancel same

theorem parent {s : Start} (inside : s.In events) (creates : s.event.creates)
    (notFirst : m.idOf s ≠ m.nextId) :
    ∃ outer : Start, outer.Encloses s ∧ (∀ other : Start, other.Encloses s → other = outer) ∧
      outer.In events ∧ outer.event.creates ∧ (m.idOf outer).index < (m.idOf s).index ∧
      m'.parent? (m.idOf s) = some (m.idOf outer) := by
  have within : s.before ≠ [] := by
    intro outermost
    apply notFirst
    rw [idOf, outermost]
    rfl
  obtain ⟨outer, encloses, creator, holds⟩ := (grown.stands s inside).inner within
  exact ⟨outer, encloses, fun other also => also.unique encloses, encloses.inside inside, creator,
    Nat.add_lt_add_left (encloses.created_lt creator) m.size, holds creates⟩

/-- Containers have smaller ids, so the way up ends at the first element. -/
theorem onChain_first (id : ElementId) (new : m.size ≤ id.index) (there : id.index < m'.size) :
    m'.OnChain id m.nextId := by
  obtain ⟨index⟩ := id
  induction index using Nat.strongRecOn with
  | ind index ih =>
    obtain ⟨s, ⟨inside, creates, isId⟩, -⟩ := grown.made ⟨index⟩ new there
    by_cases isFirst : m.idOf s = m.nextId
    · rw [← isId, isFirst]
      exact .self
    · obtain ⟨outer, -, -, -, -, older, holds⟩ := grown.parent inside creates isFirst
      rw [isId] at holds older
      exact .head holds
        (ih _ older (Nat.le_add_right m.size _) (Nat.lt_trans older there))

theorem grownTree (isTree : IsTree events) : m.GrownTree discriminator events m' m.nextId where
  isTree := isTree
  kept := grown.kept
  size := grown.size
  makes s inside := (grown.stands s inside).makes
  made := grown.made
  first := ⟨rfl, grown.isPackage_first isTree⟩
  parent _ := grown.parent
  chain := grown.onChain_first

end Grown

/-- A document that is built is one well-nested tree, and gives the elements of that tree; events
that are not one tree are refused. -/
theorem build_tree (m : Model) (discriminator : String) (events : List Event)
    (fault : Option Error) :
    (∀ m' root, m.build discriminator events fault = .ok (m', root) →
      m.GrownTree discriminator events m' root) ∧
    (¬ IsTree events → ∃ failure, m.build discriminator events fault = .error failure) := by
  have grown {m' : Model} {root : ElementId}
      (built : m.build discriminator events fault = .ok (m', root)) :
      m.GrownTree discriminator events m' root := by
    obtain ⟨-, c, accepted, frames, closed, rfl⟩ := build_ok_iff.mp built
    have traced := Construction.traced_foldlM m discriminator accepted
    rcases traced.stage with ⟨noRoot, -⟩ | ⟨isTree, -, isFirst⟩
    · rw [noRoot] at closed
      cases closed
    · rw [isFirst] at closed
      cases closed
      exact traced.grown.grownTree isTree
  refine ⟨fun m' root => grown, fun notTree => ?_⟩
  cases built : m.build discriminator events fault with
  | error failure => exact ⟨failure, rfl⟩
  | ok result => exact absurd (grown built).isTree notTree

/-- A document with a class that has a note, and in the note a detail. -/
def notedDocument : List Event :=
  [.opening "EPackage" (.ofList [("name", "zoo")]),
    .opening "eClassifiers" (.ofList [("xsi:type", "ecore:EClass"), ("name", "Keeper")]),
    .opening "eAnnotations" (.ofList [("source", "roster")]),
    .opening "details" (.ofList [("key", "shift"), ("value", "night")]), .closing,
    .closing, .closing, .closing]

/-- The model with the elements of `notedDocument`. -/
def noted : Model := (({} : Model).build "xsi:type" notedDocument none).toOption.elim {} Prod.fst

/-- Built once more, the document gives the three elements again, behind the first ones; one end too
many is refused. -/
theorem build_tree_noted :
    (∃ m', noted.build "xsi:type" notedDocument none = .ok (m', ⟨3⟩) ∧
      noted.GrownTree "xsi:type" notedDocument m' ⟨3⟩ ∧ m'.size = 6) ∧
    ∃ failure, noted.build "xsi:type" (notedDocument ++ [.closing]) none = .error failure := by
  have tooMany : ¬ IsTree (notedDocument ++ [.closing]) := fun isTree =>
    absurd isTree.rise_eq (by decide)
  refine ⟨?_, (build_tree noted "xsi:type" (notedDocument ++ [.closing]) none).2 tooMany⟩
  have built : noted.build "xsi:type" notedDocument none =
      .ok ((noted.build "xsi:type" notedDocument none).toOption.elim {} Prod.fst, ⟨3⟩) := rfl
  have grown := (build_tree noted "xsi:type" notedDocument none).1 _ _ built
  exact ⟨_, built, grown, grown.size⟩

end Model

end Metamodel
