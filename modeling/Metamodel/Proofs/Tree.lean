import Mathlib.Data.List.Perm.Basic
import Metamodel.Proofs.Ownership

/-!
The containment tree below an element.

In a well-formed model the elements that are reached from one through slots form a tree: the
subtrees of its members are apart, so that a list of them names each element once.

Results:
1. `WellFormed.treeInduction`: what passes from members to what holds them is true of all elements.
2. `WellFormed.mem_tree`, `WellFormed.nodup_tree`: the tree lists what is reached through slots, and
   each element of it once.
3. `WellFormed.visited_perm`: the metaclasses of an element together visit each of its members once.
-/

namespace Metamodel

namespace Slot

theorem nodup_all : all.Nodup := by decide

end Slot

/-- The slots whose members are visited for an instance of a metaclass. -/
def Metaclass.slots : Metaclass → List Slot
  | .eModelElement => [.annotations]
  | .ePackage => [.dataTypes, .classes, .subpackages]
  | .eClassifier => [.typeParameters]
  | .eClass => [.attributes, .references, .operations, .genericSuperTypes]
  | .eEnum => [.literals]
  | .eTypedElement => [.genericType]
  | .eOperation => [.parameters, .typeParameters]
  | .eTypeParameter => [.bounds]
  | .eGenericType => [.lowerBound, .upperBound, .typeArguments]
  | _ => []

/-- The metaclasses of a kind have its slots, and no two of them have one in common. -/
theorem Kind.slots_perm (k : Kind) :
    (k.lineage.flatMap Metaclass.slots).Perm (Slot.all.filter (·.isOn k)) := by
  cases k <;> decide

namespace Model

/-- An element and what is below it, at most `depth` levels down. -/
def treeWithin (m : Model) : Nat → ElementId → List ElementId
  | 0, _ => []
  | depth + 1, id => id :: (m.allMembers id).flatMap (m.treeWithin depth)

/-- An element and everything below it. -/
def tree (m : Model) (id : ElementId) : List ElementId := m.treeWithin m.size id

variable {m : Model}

theorem allMembers_of_get?_eq_none {id : ElementId} (missing : m.get? id = none) :
    m.allMembers id = [] := by
  simp [allMembers, members, missing]

theorem SlotsSound.parent_of_mem_allMembers (sound : m.SlotsSound) {p c : ElementId}
    (held : c ∈ m.allMembers p) : m.parent? c = some p := by
  obtain ⟨slot, held⟩ := mem_allMembers.mp held
  exact sound.parent held

theorem SlotsSound.nodup_allMembers (sound : m.SlotsSound) (id : ElementId) :
    (m.allMembers id).Nodup := by
  refine List.nodup_flatMap.mpr ⟨fun slot _ => sound.nodup slot id, ?_⟩
  refine Slot.nodup_all.imp fun ne => ?_
  intro c held held'
  exact ne (sound.slot_unique held held')

/-- A slot that the kind of an element does not have is empty. -/
theorem SlotsSound.members_eq_nil (sound : m.SlotsSound) {slot : Slot} {id : ElementId} {k : Kind}
    (known : m.kind? id = some k) (off : slot.isOn k = false) : m.members slot id = [] := by
  refine List.eq_nil_iff_forall_not_mem.mpr fun c held => ?_
  have on := (sound.fits held).1
  rw [known, Option.any_some, off] at on
  exact Bool.false_ne_true on

/-- What gives nothing may be left out. -/
theorem flatMap_eq_filter {α β : Type} {f : α → List β} {p : α → Bool} {l : List α}
    (nothing : ∀ a, p a = false → f a = []) : l.flatMap f = (l.filter p).flatMap f := by
  induction l with
  | nil => rfl
  | cons a l ih =>
    cases kept : p a with
    | true => simp [kept, ih]
    | false => simp [kept, ih, nothing a kept]

theorem SlotsSound.allMembers_eq (sound : m.SlotsSound) {id : ElementId} {k : Kind}
    (known : m.kind? id = some k) :
    m.allMembers id = (Slot.all.filter (·.isOn k)).flatMap fun slot => m.members slot id :=
  flatMap_eq_filter fun _ off => sound.members_eq_nil known off

theorem Within.cases_head {root id : ElementId} (within : m.Within root id) :
    id = root ∨ ∃ c ∈ m.allMembers root, m.Within c id := by
  induction within with
  | self => exact .inl rfl
  | member _ held ih =>
    rcases ih with rfl | ⟨c, top, rest⟩
    · exact .inr ⟨_, mem_allMembers.mpr ⟨_, held⟩, .self⟩
    · exact .inr ⟨c, top, .member rest held⟩

/-- Of two elements on one chain, one is above the other. -/
theorem OnChain.total {id a b : ElementId} (toA : m.OnChain id a) (toB : m.OnChain id b) :
    m.OnChain a b ∨ m.OnChain b a := by
  induction toA with
  | self => exact .inl toB
  | up _ next ih =>
    rcases ih with below | above
    · rcases below.cases_head with rfl | ⟨p, container, rest⟩
      · exact .inr (.up .self next)
      · rw [next] at container
        cases container
        exact .inl rest
    · exact .inr (.up above next)

namespace WellFormed

/-- What is true of an element when it is true of its members is true of every element. -/
theorem treeInduction (wf : m.WellFormed) {motive : ElementId → Prop}
    (step : ∀ id, (∀ c ∈ m.allMembers id, motive c) → motive id) (id : ElementId) : motive id := by
  -- The chain of a member is longer than that of what holds it, and none is longer than the model.
  induction height : m.size - (m.ownerChain id).length using Nat.strongRecOn generalizing id with
  | ind n ih =>
    refine step id fun c held => ih _ ?_ c rfl
    have above := wf.parent_of_mem_allMembers held
    obtain ⟨e, found⟩ := exists_of_parent? above
    have short := (wf.ownerChain_eq found (Nat.le_refl m.size)).2.1
    rw [wf.ownerChain_of_parent? above, List.length_cons] at short ⊢
    omega

/-- A recursion over what elements hold, bounded by the size of the model, may go one level on. -/
theorem eq_succ {β : Type} (wf : m.WellFormed) {f : Nat → ElementId → β}
    (step : ∀ depth depth' id, (∀ c ∈ m.allMembers id, f depth c = f depth' c) →
      f (depth + 1) id = f (depth' + 1) id) {id : ElementId} {e : Element}
    (found : m.get? id = some e) : f m.size id = f (m.size + 1) id := by
  have pos := length_ownerChain_pos found
  exact wf.eq_of_deep step found (by omega) (by omega)

theorem tree_eq (wf : m.WellFormed) {id : ElementId} {e : Element} (found : m.get? id = some e) :
    m.tree id = id :: (m.allMembers id).flatMap m.tree := by
  refine wf.eq_succ (f := m.treeWithin) (fun depth depth' id same => ?_) found
  simp only [treeWithin]
  rw [List.flatMap_congr same]

theorem mem_tree (wf : m.WellFormed) {root id : ElementId} {e : Element}
    (found : m.get? root = some e) : id ∈ m.tree root ↔ m.Within root id := by
  induction root using wf.treeInduction generalizing e with
  | step root ih =>
    rw [wf.tree_eq found, List.mem_cons, List.mem_flatMap]
    have below {c : ElementId} (held : c ∈ m.allMembers root) : id ∈ m.tree c ↔ m.Within c id := by
      obtain ⟨e', there⟩ := exists_of_parent? (wf.parent_of_mem_allMembers held)
      exact ih c held there
    constructor
    · rintro (rfl | ⟨c, held, inside⟩)
      · exact .self
      · exact .trans (.of_mem_allMembers .self held) ((below held).mp inside)
    · intro within
      rcases within.cases_head with rfl | ⟨c, held, rest⟩
      · exact .inl rfl
      · exact .inr ⟨c, held, (below held).mpr rest⟩

/-- Nothing is below two members of one element. -/
theorem member_unique (wf : m.WellFormed) {p a b id : ElementId} (heldA : a ∈ m.allMembers p)
    (heldB : b ∈ m.allMembers p) (belowA : m.Within a id) (belowB : m.Within b id) : a = b := by
  have aboveA := wf.parent_of_mem_allMembers heldA
  have aboveB := wf.parent_of_mem_allMembers heldB
  have apart {c d : ElementId} (aboveC : m.parent? c = some p) (aboveD : m.parent? d = some p)
      (chain : m.OnChain c d) : d = c := by
    rcases chain.cases_head with same | ⟨q, container, rest⟩
    · exact same
    · rw [aboveC] at container
      cases container
      exact absurd rest ((wf.acyclic d).not_loop aboveD)
  rcases (wf.onChain belowA).total (wf.onChain belowB) with chain | chain
  · exact (apart aboveA aboveB chain).symm
  · exact apart aboveB aboveA chain

theorem nodup_tree (wf : m.WellFormed) {root : ElementId} {e : Element}
    (found : m.get? root = some e) : (m.tree root).Nodup := by
  induction root using wf.treeInduction generalizing e with
  | step root ih =>
    have there {c : ElementId} (held : c ∈ m.allMembers root) : ∃ e, m.get? c = some e :=
      exists_of_parent? (wf.parent_of_mem_allMembers held)
    have within {c x : ElementId} (held : c ∈ m.allMembers root) (inside : x ∈ m.tree c) :
        m.Within c x := by
      obtain ⟨e', foundMember⟩ := there held
      exact (wf.mem_tree foundMember).mp inside
    rw [wf.tree_eq found, List.nodup_cons]
    refine ⟨fun back => ?_, List.nodup_flatMap.mpr ⟨fun c held => ?_, ?_⟩⟩
    · obtain ⟨c, held, inside⟩ := List.mem_flatMap.mp back
      obtain ⟨slot, inSlot⟩ := mem_allMembers.mp held
      exact wf.not_within wf.acyclic inSlot (within held inside)
    · obtain ⟨e', foundMember⟩ := there held
      exact ih c held foundMember
    · refine (wf.nodup_allMembers root).imp_of_mem fun heldA heldB ne => ?_
      intro x insideA insideB
      exact ne (wf.member_unique heldA heldB (within heldA insideA) (within heldB insideB))

/-- What the metaclass visits stands in its slots. -/
theorem visited_slots (wf : m.WellFormed) (c : Metaclass) (id : ElementId) :
    (m.visited c id).Perm (c.slots.flatMap fun slot => m.members slot id) := by
  cases c
  case ePackage =>
    have sorted : (m.sortedClasses id).Perm (m.members .classes id) := sortClasses_perm _
    simpa [Model.visited, Metaclass.slots] using
      (sorted.append_right (m.members .subpackages id)).append_left (m.members .dataTypes id)
  case eNote => simp [Model.visited, Metaclass.slots, note_contents_eq, wf.noteContents]
  all_goals simp [Model.visited, Metaclass.slots]

/-- Together the metaclasses of an element visit each of its members once. -/
theorem visited_perm (wf : m.WellFormed) (id : ElementId) :
    ((m.lineage id).flatMap fun c => m.visited c id).Perm (m.allMembers id) := by
  cases known : m.kind? id with
  | none =>
    have missing : m.get? id = none := by simpa [kind?] using known
    simp [lineage, known, allMembers_of_get?_eq_none missing]
  | some k =>
    have lineage : m.lineage id = k.lineage := by simp [Model.lineage, known]
    rw [lineage, wf.allMembers_eq known]
    calc (k.lineage.flatMap fun c => m.visited c id)
      _ |>.Perm (k.lineage.flatMap fun c => c.slots.flatMap fun slot => m.members slot id) :=
        List.Perm.flatMap_left k.lineage fun c _ => wf.visited_slots c id
      _ |>.Perm ((k.lineage.flatMap Metaclass.slots).flatMap fun slot => m.members slot id) := by
        rw [List.flatMap_assoc]
      _ |>.Perm ((Slot.all.filter (·.isOn k)).flatMap fun slot => m.members slot id) :=
        k.slots_perm.flatMap_right _

end WellFormed

end Model

end Metamodel
