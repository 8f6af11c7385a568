import Metamodel.Proofs.Acceptance

/-!
The names of the classifiers of a package.

A package holds its classes in one table and its data types, enums among them, in another. A table
refuses a second member of a name, so the members of one table have different names, however the
model was made. But a table is filled without a look at the other one: a class and a data type of
one name may stand side by side, and they do as soon as one is put in after the other.

Results:
1. `Construction.growth_take`: a step brings at most one element into the slots, and what stands in
   a table stays there under its name.
2. `Growth.uniqueClassifiers_iff`: the names stay unique exactly if the step does not put a
   classifier beside a namesake in the other table.
3. `classifierNames_play`: the names of classifiers after any sequence of steps, and which classifier
   is refused.
4. `play_class_beside_dataType`: a class and a data type of one name in one package.
-/

namespace Metamodel

namespace Slot

/-- The slots of a package that hold its classifiers. -/
def holdsClassifiers : Slot → Bool
  | .classes | .dataTypes => true
  | _ => false

variable {slot : Slot}

theorem exists_table? (named : slot.holdsClassifiers) {e : Element} (isPackage : e.kind = .ePackage) :
    ∃ table, e.body.table? slot = some table := by
  obtain ⟨id, name, parent, annotations, body⟩ := e
  cases body <;> cases isPackage
  cases slot <;> first | cases named; done | exact ⟨_, rfl⟩

theorem isOn_iff_ePackage (named : slot.holdsClassifiers) {k : Kind} :
    slot.isOn k ↔ k = .ePackage := by
  cases slot <;> first | cases named; done | simp [isOn]

theorem isSingle_eq_false (named : slot.holdsClassifiers) : slot.isSingle = false := by
  cases slot <;> first | cases named; done | rfl

theorem not_isA_of_ePackage (named : slot.holdsClassifiers) :
    Kind.ePackage.isA slot.memberClass = false := by
  cases slot <;> first | cases named; done | rfl

end Slot

namespace TagMeaning

/-- What a tag stands for fits the slot that it goes into. -/
theorem isA_memberClass {discriminator tag : String} {attributes : OrderedMap String}
    {meaning : TagMeaning} (known : of discriminator tag attributes = .ok (some meaning)) :
    meaning.kind.isA meaning.slot.memberClass := by
  unfold of at known
  split at known
  · rw [Except.ok.injEq] at known
    unfold ofTag? at known
    split at known <;> cases known <;> rfl
  · next choices listed =>
    split at known
    · cases known
    · split at known
      · cases known
      · next value _ meaning' chosen =>
        cases known
        have member : ∀ choice ∈ choices, choice.2.kind.isA choice.2.slot.memberClass := by
          unfold choices? at listed
          split at listed <;> cases listed <;> decide
        obtain ⟨before, after, rfl, -⟩ := List.lookup_eq_some_iff.mp chosen
        exact member _ (List.mem_append_right before List.mem_cons_self)

end TagMeaning

namespace Model

variable {m m' n : Model}

/-! ## One table -/

/-- The classifiers of a package. -/
def classifiers (m : Model) (p : ElementId) : List ElementId :=
  m.members .classes p ++ m.members .dataTypes p

theorem mem_classifiers {p c : ElementId} :
    c ∈ m.classifiers p ↔ ∃ slot : Slot, slot.holdsClassifiers ∧ c ∈ m.members slot p := by
  rw [classifiers, List.mem_append]
  constructor
  · rintro (h | h)
    · exact ⟨.classes, rfl, h⟩
    · exact ⟨.dataTypes, rfl, h⟩
  · rintro ⟨slot, named, h⟩
    cases slot <;> first | cases named; done | exact .inl h | exact .inr h

/-- Whether a member of the slot has the name. -/
def isTaken (m : Model) (slot : Slot) (p : ElementId) (name : String) : Bool :=
  (m.members slot p).any fun y => m.label y = name

section Table

variable {slot : Slot} {p : ElementId} {e : Element}

theorem members_of_get? (found : m.get? p = some e) (slot : Slot) :
    m.members slot p = e.members slot := by
  simp [members, found]

theorem members_eq_values (named : slot.holdsClassifiers) (found : m.get? p = some e)
    {table : OrderedMap ElementId} (known : e.body.table? slot = some table) :
    m.members slot p = table.values := by
  rw [members_of_get? found]
  unfold Element.members
  rw [if_neg (by rintro rfl; cases named)]
  exact Body.members_eq_values known

/-- The members of a table are its entries, each under its own name. -/
theorem SlotsSound.exists_entries (sound : m.SlotsSound) (named : slot.holdsClassifiers)
    (found : m.get? p = some e) (isPackage : e.kind = .ePackage) :
    ∃ table : OrderedMap ElementId, e.body.table? slot = some table ∧
      m.members slot p = table.values ∧ table.keys = (m.members slot p).map m.label := by
  obtain ⟨table, known⟩ := Slot.exists_table? named isPackage
  have values := members_eq_values named found known
  refine ⟨table, known, values, ?_⟩
  rw [values, OrderedMap.values, OrderedMap.keys, List.map_map]
  refine List.map_congr_left fun entry listed => ?_
  exact (sound.keyed ((table?_of_get? found slot).trans known) listed).symm

/-- The members of a table have different names. -/
theorem SlotsSound.nodup_labels (sound : m.SlotsSound) (named : slot.holdsClassifiers)
    (p : ElementId) : ((m.members slot p).map m.label).Nodup := by
  rcases List.eq_nil_or_concat (m.members slot p) with none | ⟨_, c, some⟩
  · rw [none]
    exact List.nodup_nil
  · have member : c ∈ m.members slot p := by simp [some]
    obtain ⟨k, known, on⟩ := Option.any_eq_true _ _ |>.mp (sound.fits member).1
    obtain ⟨e, found, rfl⟩ := get?_of_kind? known
    obtain ⟨table, -, -, keys⟩ :=
      sound.exists_entries named found ((Slot.isOn_iff_ePackage named).mp on)
    rw [← keys]
    exact table.nodup_keys

theorem SlotsSound.hasMemberNamed_eq (sound : m.SlotsSound) (named : slot.holdsClassifiers)
    (found : m.get? p = some e) (isPackage : e.kind = .ePackage) (name : String) :
    e.hasMemberNamed slot name = m.isTaken slot p name := by
  obtain ⟨table, known, -, keys⟩ := sound.exists_entries named found isPackage
  have opened : e.body.package?.bind (·.table? slot) = some table := known
  rw [Element.hasMemberNamed, opened, Option.any_some, Bool.eq_iff_iff,
    OrderedMap.contains_iff_mem_keys, keys]
  simp [isTaken]

/-- Of a free element that fits a slot, the slot only looks at the name. -/
theorem add_eq {slot : Slot} {owner member : ElementId} {container content : Element}
    (held : m.get? owner = some container) (there : m.get? member = some content)
    (on : slot.isOn container.kind) (fit : content.kind.isA slot.memberClass) (ne : owner ≠ member)
    (free : content.parent = none) :
    m.add slot owner member =
      if container.hasMemberNamed slot content.label then
        .error (.duplicateName (m.describe owner) content.label)
      else .ok (m.attach slot owner member) := by
  cases taken : container.hasMemberNamed slot content.label <;>
    simp [add, require, demand, held, there, on, fit, ne, free, taken, bind, Except.bind, pure,
      Except.pure]

/-- A free element that fits a table is refused exactly for the name of one that is in the table. -/
theorem SlotsSound.add_classifier (sound : m.SlotsSound) {slot : Slot}
    (named : slot.holdsClassifiers) {p x : ElementId} (isPackage : m.isPackage p)
    (fit : (m.kind? x).any (·.isA slot.memberClass)) (free : m.parent? x = none) :
    m.add slot p x =
      if m.isTaken slot p (m.label x) then .error (.duplicateName (m.describe p) (m.label x))
      else .ok (m.attach slot p x) := by
  obtain ⟨container, held, isPackage⟩ := get?_of_kind? (of_decide_eq_true isPackage)
  obtain ⟨k, known, fits⟩ := Option.any_eq_true _ _ |>.mp fit
  obtain ⟨content, there, rfl⟩ := get?_of_kind? known
  have ne : p ≠ x := by
    rintro rfl
    rw [held, Option.some.injEq] at there
    rw [← there, isPackage, Slot.not_isA_of_ePackage named] at fits
    cases fits
  rw [parent?_of_get? there] at free
  rw [add_eq held there ((Slot.isOn_iff_ePackage named).mpr isPackage) fits ne free,
    label_of_get? there, sound.hasMemberNamed_eq named held isPackage]

end Table

/-! ## One step -/

/-- How a step may change what stands in the slots: at most one element comes in, and what stands in
a table stays there under its name. -/
structure Growth (m m' : Model) : Prop where
  kept : ∀ {slot p c}, slot.isSingle = false → c ∈ m.members slot p → c ∈ m'.members slot p
  label : ∀ {slot p c}, c ∈ m.members slot p → m'.label c = m.label c
  one_new : ∀ {slot slot' p p' c c'}, c ∈ m'.members slot p → c ∉ m.members slot p →
    c' ∈ m'.members slot' p' → c' ∉ m.members slot' p' → c = c'

/-- No two classifiers of a package have the same name. -/
def UniqueClassifiers (m : Model) : Prop :=
  ∀ p, ∀ x ∈ m.classifiers p, ∀ y ∈ m.classifiers p, m.label x = m.label y → x = y

/-- From `m` to `m'`, a classifier comes into a table of a package that has a namesake of it in the
other table. -/
def Doubles (m m' : Model) : Prop :=
  ∃ p, ∃ slot other : Slot, slot.holdsClassifiers ∧ other.holdsClassifiers ∧ other ≠ slot ∧
    ∃ x ∈ m'.members slot p, x ∉ m.members slot p ∧ ∃ y ∈ m.members other p, m.label y = m'.label x

/-- The names of classifiers stay unique exactly if the step does not double one. -/
theorem Growth.uniqueClassifiers_iff (growth : Growth m m') (sound : m'.SlotsSound) :
    m'.UniqueClassifiers ↔ m.UniqueClassifiers ∧ ¬ Doubles m m' := by
  have kept {p c : ElementId} (h : c ∈ m.classifiers p) : c ∈ m'.classifiers p := by
    obtain ⟨slot, named, h⟩ := mem_classifiers.mp h
    exact mem_classifiers.mpr ⟨slot, named, growth.kept (Slot.isSingle_eq_false named) h⟩
  have label {p c : ElementId} (h : c ∈ m.classifiers p) : m'.label c = m.label c := by
    obtain ⟨slot, -, h⟩ := mem_classifiers.mp h
    exact growth.label h
  constructor
  · intro unique
    refine ⟨fun p x hx y hy same => ?_, ?_⟩
    · refine unique p x (kept hx) y (kept hy) ?_
      rw [label hx, label hy, same]
    · rintro ⟨p, slot, other, named, named', ne, x, hx, -, y, hy, same⟩
      have hy' := growth.kept (Slot.isSingle_eq_false named') hy
      have both : y = x :=
        unique p y (mem_classifiers.mpr ⟨other, named', hy'⟩) x (mem_classifiers.mpr ⟨slot, named, hx⟩)
          ((growth.label hy).trans same)
      exact ne (sound.slot_unique hy' (both ▸ hx))
  · rintro ⟨unique, single⟩ p x hx y hy same
    obtain ⟨slot, named, hx⟩ := mem_classifiers.mp hx
    obtain ⟨other, named', hy⟩ := mem_classifiers.mp hy
    by_cases oneTable : slot = other
    · subst oneTable
      exact List.inj_on_of_nodup_map (sound.nodup_labels named p) hx hy same
    -- In different tables: both stood there before, one is new beside the other, or both are new.
    by_cases oldX : x ∈ m.members slot p <;> by_cases oldY : y ∈ m.members other p
    · refine unique p x (mem_classifiers.mpr ⟨slot, named, oldX⟩) y
        (mem_classifiers.mpr ⟨other, named', oldY⟩) ?_
      rw [← growth.label oldX, ← growth.label oldY, same]
    · refine absurd ⟨p, other, slot, named', named, oneTable, y, hy, oldY, x, oldX, ?_⟩ single
      rw [← growth.label oldX, same]
    · refine absurd ⟨p, slot, other, named, named', Ne.symm oneTable, x, hx, oldX, y, oldY, ?_⟩
        single
      rw [← growth.label oldY, same]
    · exact growth.one_new hx oldX hy oldY

/-! ### What the operations do -/

/-- Nothing moves, and what stands in a slot keeps its name. -/
structure Quiet (m n : Model) : Prop where
  members : ∀ slot p, n.members slot p = m.members slot p
  label : ∀ {slot p c}, c ∈ m.members slot p → n.label c = m.label c

theorem Quiet.followedBy (quiet : Quiet m n) (growth : Growth n m') : Growth m m' where
  kept plural h := growth.kept plural (quiet.members _ _ ▸ h)
  label h := (growth.label (quiet.members _ _ ▸ h)).trans (quiet.label h)
  one_new hx newX hy newY :=
    growth.one_new hx (quiet.members _ _ ▸ newX) hy (quiet.members _ _ ▸ newY)

theorem Quiet.isTaken (quiet : Quiet m n) (slot : Slot) (p : ElementId) (name : String) :
    n.isTaken slot p name = m.isTaken slot p name := by
  unfold Model.isTaken
  rw [quiet.members, Bool.eq_iff_iff, List.any_eq_true, List.any_eq_true]
  exact exists_congr fun y => and_congr_right fun h => by rw [quiet.label h]

theorem Growth.refl (m : Model) : Growth m m where
  kept _ h := h
  label _ := rfl
  one_new hx newX := absurd hx newX

theorem Quiet.growth (quiet : Quiet m n) : Growth m n := quiet.followedBy (.refl n)

theorem SameOutline.quiet (same : SameOutline m n) : Quiet m n where
  members := same.members
  label _ := same.label _

theorem quiet_append {e : Element} (sound : m.SlotsSound) (detached : e.Detached) :
    Quiet m (m.append e) where
  members := members_append detached
  label h := by
    unfold Model.label
    rw [get?_append_of_parent? (sound.parent h)]

theorem growth_add {slot : Slot} {owner member : ElementId}
    (added : m.add slot owner member = .ok m') : Growth m m' := by
  obtain ⟨container, content, held, there, on, -, ne, -, newName, rfl⟩ := add_ok_iff.mp added
  have new {other : Slot} {p c : ElementId}
      (h : c ∈ (m.attach slot owner member).members other p) (absent : c ∉ m.members other p) :
      c = member := by
    rcases (mem_members_attach held there ne on newName).mp h with ⟨-, -, same⟩ | ⟨old, -⟩
    · exact same
    · exact absurd old absent
  refine { kept := ?kept, label := ?label, one_new := ?one_new }
  case kept =>
    intro other p c plural h
    refine (mem_members_attach held there ne on newName).mpr (.inr ⟨h, ?_⟩)
    rintro ⟨-, rfl, single⟩
    rw [plural] at single
    cases single
  case label =>
    intro other p c h
    exact label_attach held there ne c
  case one_new =>
    intro other other' p p' c c' h absent h' absent'
    exact (new h absent).trans (new h' absent').symm

theorem Extended.growth (extended : m.Extended n) (sound : m.SlotsSound) : Growth m n := by
  cases extended with
  | same outline => exact outline.quiet.growth
  | created detached => exact (quiet_append sound detached).growth
  | contained detached added => exact (quiet_append sound detached).followedBy (growth_add added)

theorem Extended.slotsSound (extended : m.Extended n) (sound : m.SlotsSound) : n.SlotsSound := by
  cases extended with
  | same outline => exact outline.slotsSound sound
  | created detached => exact slotsSound_append sound detached
  | contained detached added => exact slotsSound_add (slotsSound_append sound detached) added

theorem growth_perform (sound : m.SlotsSound) (call : Call) : Growth m (m.perform call) :=
  perform_keeps (.refl m) (fun _ detached => (quiet_append sound detached).growth)
    (fun added => growth_add added) call

end Model

/-! ## Runs -/

/-- A step in the making of models. -/
inductive Move
  | call (call : Model.Call)
  | detail (note : ElementId) (key value : String)
  /-- A document begins, whether the one before has come to its end or not. -/
  | document
  | event (discriminator : String) (event : Event)
  deriving DecidableEq

namespace Construction

/-- What a step leaves, whether it succeeds or not. -/
def take (c : Construction) : Move → Construction
  | .call call => { c with model := c.model.perform call }
  | .detail note key value =>
    match c.model.addDetail note key value with
    | .ok model => { c with model }
    | .error _ => c
  | .document => { model := c.model }
  | .event discriminator event => after (c.handle discriminator event)

/-- What a sequence of steps makes of the empty model. -/
def play (moves : List Move) : Construction := moves.foldl take { model := {} }

theorem play_append_singleton (moves : List Move) (move : Move) :
    play (moves ++ [move]) = (play moves).take move := by
  simp [play]

variable {c : Construction}

open Model (Growth)

/-- A step brings at most one element into the slots, and leaves what stands in a table there. -/
theorem growth_take (sound : c.model.SlotsSound) (move : Move) :
    Growth c.model (c.take move).model ∧ (c.take move).model.SlotsSound := by
  cases move with
  | call call => exact ⟨Model.growth_perform sound call, Model.slotsSound_perform sound call⟩
  | detail note key value =>
    simp only [take]
    split
    · next added =>
      have outline := Model.sameOutline_addDetail added
      exact ⟨outline.quiet.growth, outline.slotsSound sound⟩
    · exact ⟨.refl _, sound⟩
  | document => exact ⟨.refl _, sound⟩
  | event discriminator event =>
    have extended := extended_handle (c := c) discriminator event
    exact ⟨extended.growth sound, extended.slotsSound sound⟩

theorem slotsSound_play (moves : List Move) : (play moves).model.SlotsSound := by
  induction moves using List.reverseRecOn with
  | nil => exact Model.slotsSound_empty
  | append_singleton moves move ih =>
    rw [play_append_singleton]
    exact (growth_take ih move).2

/-- Some step of the sequence has put a classifier beside a namesake in the other table. -/
def Doubled (moves : List Move) : Prop :=
  ∃ before move after, moves = before ++ move :: after ∧
    Model.Doubles (play before).model ((play before).take move).model

/-- The names of classifiers are unique as long as none has been put beside a namesake. -/
theorem uniqueClassifiers_play_iff (moves : List Move) :
    (play moves).model.UniqueClassifiers ↔ ¬ Doubled moves := by
  induction moves using List.reverseRecOn with
  | nil =>
    refine iff_of_true (fun p x hx => ?_) ?_
    · simp [play, Model.classifiers, Model.members, Model.get?] at hx
    · rintro ⟨before, move, after, split, -⟩
      exact absurd split.symm (by simp)
  | append_singleton moves move ih =>
    obtain ⟨growth, sound⟩ := growth_take (slotsSound_play moves) move
    rw [play_append_singleton, growth.uniqueClassifiers_iff sound, ih, Doubled, Doubled,
      exists_split_append_singleton (P := fun before move =>
        Model.Doubles (play before).model ((play before).take move).model), not_or]

/-- The start of a classifier within an open package. -/
structure Starts (c : Construction) (discriminator tag : String) (attributes : OrderedMap String)
    (p : ElementId) (slot : Slot) (e : Element) : Prop where
  noRoot : c.root = none
  innermost : c.frames.head? = some (.element p)
  isPackage : c.model.isPackage p
  named : slot.holdsClassifiers
  meaning : ∃ kind, TagMeaning.of discriminator tag attributes = .ok (some ⟨kind, slot⟩) ∧
    Element.applyAttributes discriminator attributes.entries (.blank c.model.nextId kind) = .ok e

section Starts

variable {discriminator tag : String} {attributes : OrderedMap String} {p : ElementId} {slot : Slot}
  {e : Element}

/-- The element of the start is new, fits the slot and stands nowhere. -/
theorem Starts.fresh (starts : c.Starts discriminator tag attributes p slot e) :
    e.Detached ∧ e.kind.isA slot.memberClass := by
  obtain ⟨kind, known, applied⟩ := starts.meaning
  have left : Element.afterAttributes discriminator attributes.entries
      (.blank c.model.nextId kind) = e := by
    rw [Element.afterAttributes, applied]
  have bare := Element.bare_applyAttributes discriminator attributes.entries
    (.blank c.model.nextId kind)
  rw [left] at bare
  refine ⟨left ▸ Element.detached_afterAttributes discriminator attributes.entries _ kind, ?_⟩
  have same : e.kind = kind := by
    have outline : e.body.outline.kind = (Body.blank kind).outline.kind :=
      congrArg (fun e => e.body.kind) bare
    rw [Body.kind_outline, Body.kind_outline, Body.kind_blank] at outline
    exact outline
  rw [same]
  exact TagMeaning.isA_memberClass known

theorem Starts.handle_eq (starts : c.Starts discriminator tag attributes p slot e) :
    c.handle discriminator (.opening tag attributes) =
      match (c.model.append e).add slot p c.model.nextId with
      | .error error => .error (error, { c with model := c.model.append e })
      | .ok model => .ok { c with model, frames := .element c.model.nextId :: c.frames } := by
  obtain ⟨kind, known, applied⟩ := starts.meaning
  obtain ⟨outer, frames⟩ := List.head?_eq_some_iff.mp starts.innermost
  have notDetail : tag ≠ "details" := by
    rintro rfl
    cases known
  have inner : c.innermost? = some p := by rw [innermost?, frames]
  have meant : c.meaning discriminator tag attributes (some p) = .ok (kind, some slot) :=
    meaning_ok_iff.mpr (.inr ⟨Option.some_ne_none p, _, known, rfl, rfl⟩)
  rw [handle, handleOpening_eq starts.noRoot (by rw [starts.innermost]; simp), if_neg notDetail,
    inner, meant]
  cases added : (c.model.append e).add slot p c.model.nextId <;>
    simp only [openElement, applied, added]

/-- The start of a classifier is refused exactly for the name of one that is in its table. -/
theorem Starts.handle_classifier (sound : c.model.SlotsSound)
    (starts : c.Starts discriminator tag attributes p slot e) :
    c.handle discriminator (.opening tag attributes) =
      if c.model.isTaken slot p e.label then
        .error (.duplicateName ((c.model.append e).describe p) e.label,
          { c with model := c.model.append e })
      else
        .ok { c with
          model := (c.model.append e).attach slot p c.model.nextId
          frames := .element c.model.nextId :: c.frames } := by
  obtain ⟨detached, fits⟩ := starts.fresh
  have quiet := Model.quiet_append sound detached
  have born : (c.model.append e).get? c.model.nextId = some e := by
    rw [Model.get?_append, if_pos rfl]
  have old : p ≠ c.model.nextId := by
    rintro rfl
    obtain ⟨container, found⟩ := Model.get?_of_isPackage starts.isPackage
    rw [Model.get?_nextId] at found
    cases found
  have package : (c.model.append e).isPackage p := by
    rw [Model.isPackage, Model.kind?, Model.get?_append, if_neg old]
    exact starts.isPackage
  have added := (Model.slotsSound_append sound detached).add_classifier starts.named package
    (by rw [Model.kind?_of_get? born]; exact fits)
    (by rw [Model.parent?_of_get? born]; exact detached.parent)
  rw [Model.label_of_get? born, quiet.isTaken] at added
  rw [starts.handle_eq, added]
  cases c.model.isTaken slot p e.label <;> rfl

end Starts

/-- Each table has its names for itself: its members have different ones, and an addition or a start
of a classifier is refused if its table has the name, and only then. -/
structure TablesGuarded (c : Construction) : Prop where
  distinct : ∀ (slot : Slot) (p : ElementId), slot.holdsClassifiers →
    ∀ x ∈ c.model.members slot p, ∀ y ∈ c.model.members slot p,
      c.model.label x = c.model.label y → x = y
  add_eq : ∀ (slot : Slot) (p x : ElementId), slot.holdsClassifiers → c.model.isPackage p →
    (c.model.kind? x).any (·.isA slot.memberClass) → c.model.parent? x = none →
    c.model.add slot p x =
      if c.model.isTaken slot p (c.model.label x) then
        .error (.duplicateName (c.model.describe p) (c.model.label x))
      else .ok (c.model.attach slot p x)
  handle_eq : ∀ discriminator tag attributes p slot e,
    c.Starts discriminator tag attributes p slot e →
    c.handle discriminator (.opening tag attributes) =
      if c.model.isTaken slot p e.label then
        .error (.duplicateName ((c.model.append e).describe p) e.label,
          { c with model := c.model.append e })
      else
        .ok { c with
          model := (c.model.append e).attach slot p c.model.nextId
          frames := .element c.model.nextId :: c.frames }

theorem tablesGuarded (sound : c.model.SlotsSound) : c.TablesGuarded where
  distinct _ p named _ hx _ hy same := List.inj_on_of_nodup_map (sound.nodup_labels named p) hx hy same
  add_eq _ _ _ named isPackage fit free := sound.add_classifier named isPackage fit free
  handle_eq _ _ _ _ _ _ starts := starts.handle_classifier sound

/-- Whatever the steps were, each table has its names for itself. So the names of the classifiers of
a package are unique exactly if no step has put one beside a namesake in the other table. -/
theorem classifierNames_play (moves : List Move) :
    (play moves).TablesGuarded ∧ ((play moves).model.UniqueClassifiers ↔ ¬ Doubled moves) :=
  ⟨tablesGuarded (slotsSound_play moves), uniqueClassifiers_play_iff moves⟩

/-- A class and a data type of one name are put into a package, one after the other. -/
def doublingMoves : List Move :=
  [.call (.create .ePackage (some "p")), .call (.create .eClass (some "A")),
    .call (.create .eDataType (some "A")), .call (.add .classes ⟨0⟩ ⟨1⟩),
    .call (.add .dataTypes ⟨0⟩ ⟨2⟩)]

/-- Both additions succeed. -/
theorem play_class_beside_dataType :
    (play doublingMoves).model.classifiers ⟨0⟩ = [⟨1⟩, ⟨2⟩] ∧
      ¬ (play doublingMoves).model.UniqueClassifiers := by
  have classifiers : (play doublingMoves).model.classifiers ⟨0⟩ = [⟨1⟩, ⟨2⟩] := by decide
  refine ⟨classifiers, fun unique => ?_⟩
  have same := unique ⟨0⟩ ⟨1⟩ (by rw [classifiers]; decide) ⟨2⟩ (by rw [classifiers]; decide)
    (by decide)
  cases same

end Construction

end Metamodel
