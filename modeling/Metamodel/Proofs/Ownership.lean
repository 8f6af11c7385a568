import Mathlib.Data.List.Perm.Subperm
import Metamodel.Proofs.Containment
import Metamodel.Traversal

/-!
Ownership: the chains of containers of a model.

An addition checks that the new member is free and is not its own owner. That does not keep it from
being a container of its owner further up, so a run of calls can close a loop. Exactly the additions
that do are the ones that make ownership cyclic, for good.

Results:
1. `acyclic_attach_iff`: an addition keeps ownership acyclic exactly if the member is not on the
   container chain of the owner.
2. `WellFormed.ownerChain_eq`, `WellFormed.walkWithin_eq`: where ownership is acyclic, the bound on
   chains and on traversals is never reached.
3. `ownership_of_run`: ownership is acyclic after a run exactly if no call of it closed a loop.
4. `run_mutual_packages`: two packages that contain each other.
-/

namespace Metamodel.Model

/-! ## Container chains -/

/-- The containers above the element end with one that has no container. -/
inductive Rooted (m : Model) : ElementId → Prop
  | top {id : ElementId} : m.parent? id = none → Rooted m id
  | member {id p : ElementId} : m.parent? id = some p → Rooted m p → Rooted m id

/-- Every chain of containers ends. -/
def Acyclic (m : Model) : Prop := ∀ id, m.Rooted id

/-- The second element is the first one, its container, that one's container and so on. -/
inductive OnChain (m : Model) (id : ElementId) : ElementId → Prop
  | self : OnChain m id id
  | up {x p : ElementId} : OnChain m id x → m.parent? x = some p → OnChain m id p

/-- The elements that are reached from `root` through slots, `root` included. -/
inductive Within (m : Model) (root : ElementId) : ElementId → Prop
  | self : Within m root root
  | member {slot : Slot} {p c : ElementId} :
      Within m root p → c ∈ m.members slot p → Within m root c

variable {m : Model}

theorem OnChain.head {id p x : ElementId} (container : m.parent? id = some p)
    (chain : m.OnChain p x) : m.OnChain id x := by
  induction chain with
  | self => exact .up .self container
  | up _ next ih => exact .up ih next

theorem OnChain.cases_head {id x : ElementId} (chain : m.OnChain id x) :
    x = id ∨ ∃ p, m.parent? id = some p ∧ m.OnChain p x := by
  induction chain with
  | self => exact .inl rfl
  | up _ next ih =>
    rcases ih with rfl | ⟨p, container, rest⟩
    · exact .inr ⟨_, next, .self⟩
    · exact .inr ⟨p, container, .up rest next⟩

/-- A chain that ends does not come back to where it started. -/
theorem Rooted.not_loop {id p : ElementId} (rooted : m.Rooted id)
    (container : m.parent? id = some p) : ¬ m.OnChain p id := by
  induction rooted generalizing p with
  | top none =>
    rw [none] at container
    exact absurd container.symm (Option.some_ne_none p)
  | @member id q above _ ih =>
    rw [above] at container
    cases container
    intro loop
    rcases loop.cases_head with rfl | ⟨r, next, rest⟩
    · exact ih above .self
    · exact ih next (.up rest above)

/-- What is reached through slots has the start on its container chain. -/
theorem SlotsSound.onChain (sound : m.SlotsSound) {root id : ElementId}
    (within : m.Within root id) : m.OnChain id root := by
  induction within with
  | self => exact .self
  | member _ held ih => exact .head (sound.parent held) ih

theorem Within.trans {a b c : ElementId} (first : m.Within a b) (second : m.Within b c) :
    m.Within a c := by
  induction second with
  | self => exact first
  | member _ held ih => exact .member ih held

theorem Within.of_mem_allMembers {root p c : ElementId} (within : m.Within root p)
    (held : c ∈ m.allMembers p) : m.Within root c := by
  obtain ⟨slot, held⟩ := mem_allMembers.mp held
  exact .member within held

/-- Nothing that an element holds reaches back to it. -/
theorem SlotsSound.not_within (sound : m.SlotsSound) (acyclic : m.Acyclic) {slot : Slot}
    {p c : ElementId} (held : c ∈ m.members slot p) : ¬ m.Within c p := by
  intro within
  exact (acyclic c).not_loop (sound.parent held) (sound.onChain within)

/-! ## What the operations do to chains -/

theorem OnChain.mono {m' : Model} {id x : ElementId} (chain : m.OnChain id x)
    (grows : ∀ {x p}, m.parent? x = some p → m'.parent? x = some p) : m'.OnChain id x := by
  induction chain with
  | self => exact .self
  | up _ next ih => exact .up ih (grows next)

/-- Chains that agree on containers end together. -/
theorem Rooted.congr {m' : Model} {id : ElementId} (rooted : m.Rooted id)
    (same : ∀ x, m.OnChain id x → m'.parent? x = m.parent? x) : m'.Rooted id := by
  induction rooted with
  | top none => exact .top ((same _ .self).trans none)
  | member above _ ih =>
    exact .member ((same _ .self).trans above) (ih fun x chain => same x (.head above chain))

theorem acyclic_of_parent?_eq {m' : Model} (same : ∀ x, m'.parent? x = m.parent? x) :
    m'.Acyclic ↔ m.Acyclic :=
  ⟨fun h id => (h id).congr fun x _ => (same x).symm, fun h id => (h id).congr fun x _ => same x⟩

section Attach

variable {slot : Slot} {owner member : ElementId} {container content : Element}

theorem acyclic_of_attach (held : m.get? owner = some container)
    (there : m.get? member = some content) (ne : owner ≠ member) (free : content.parent = none)
    (acyclic : (m.attach slot owner member).Acyclic) : m.Acyclic := by
  intro id
  induction acyclic id with
  | @top id none =>
    refine .top ?_
    cases h : m.parent? id with
    | none => rfl
    | some p => exact (parent?_attach_of_parent? held there ne free h).symm.trans none
  | @member id p above _ ih =>
    by_cases isMember : id = member
    · exact .top (isMember ▸ (parent?_of_get? there).trans free)
    · exact .member ((parent?_attach_of_ne held there ne isMember).symm.trans above) ih

theorem acyclic_attach (held : m.get? owner = some container)
    (there : m.get? member = some content) (ne : owner ≠ member) (free : content.parent = none)
    (acyclic : m.Acyclic) (apart : ¬ m.OnChain owner member) :
    (m.attach slot owner member).Acyclic := by
  -- The chain of the owner has not changed, so the new member is below one that ends.
  have above : (m.attach slot owner member).Rooted owner := by
    refine (acyclic owner).congr fun x chain => parent?_attach_of_ne held there ne ?_
    rintro rfl
    exact apart chain
  intro id
  induction acyclic id with
  | @top id none =>
    by_cases isMember : id = member
    · have container : (m.attach slot owner member).parent? id = some owner :=
        (parent?_attach held there ne id).trans (if_pos isMember)
      exact .member container above
    · exact .top ((parent?_attach_of_ne held there ne isMember).trans none)
  | @member id p next _ ih => exact .member (parent?_attach_of_parent? held there ne free next) ih

/-- An addition keeps ownership acyclic exactly if it was so and the new member is not on the
container chain of its owner. -/
theorem acyclic_attach_iff (held : m.get? owner = some container)
    (there : m.get? member = some content) (ne : owner ≠ member) (free : content.parent = none) :
    (m.attach slot owner member).Acyclic ↔ m.Acyclic ∧ ¬ m.OnChain owner member := by
  refine ⟨fun acyclic => ⟨acyclic_of_attach held there ne free acyclic, fun loop => ?_⟩,
    fun both => acyclic_attach held there ne free both.1 both.2⟩
  have container : (m.attach slot owner member).parent? member = some owner :=
    (parent?_attach held there ne member).trans (if_pos rfl)
  exact (acyclic member).not_loop container
    (loop.mono (parent?_attach_of_parent? held there ne free))

end Attach

/-! ## Well-formed models -/

/-- Containers are elements of the model, and annotations hold nothing outside their slots. -/
structure Closed (m : Model) : Prop where
  owner_exists : ∀ {id p}, m.parent? id = some p → ∃ e, m.get? p = some e
  noteContents : ∀ id, m.noteContents id = []

/-- Slots are sound, nothing is outside them, and ownership is acyclic. -/
structure WellFormed (m : Model) : Prop extends SlotsSound m, Closed m where
  acyclic : m.Acyclic

theorem closed_empty : Closed {} where
  owner_exists h := by simp [parent?, get?] at h
  noteContents id := by simp [Model.noteContents, body?, get?]

theorem closed_append {e : Element} (closed : m.Closed) (detached : e.Detached) :
    (m.append e).Closed where
  owner_exists {id p} h := by
    rw [parent?_append detached] at h
    rw [get?_append]
    split
    · exact ⟨e, rfl⟩
    · exact closed.owner_exists h
  noteContents id := by
    unfold Model.noteContents body?
    rw [get?_append]
    split
    · simpa using detached.noteContents
    · exact closed.noteContents id

theorem closed_attach {slot : Slot} {owner member : ElementId} {container content : Element}
    (closed : m.Closed) (held : m.get? owner = some container)
    (there : m.get? member = some content) (ne : owner ≠ member) :
    (m.attach slot owner member).Closed where
  owner_exists {id p} h := by
    have present : ∃ e, m.get? p = some e := by
      rw [parent?_attach held there ne] at h
      split at h
      · cases h
        exact ⟨container, held⟩
      · exact closed.owner_exists h
    obtain ⟨e, found⟩ := present
    rw [get?_attach held there ne]
    split
    · exact ⟨_, rfl⟩
    · split
      · exact ⟨_, rfl⟩
      · exact ⟨e, found⟩
  noteContents id := (noteContents_attach held there ne id).trans (closed.noteContents id)

theorem SameOutline.exists_get? {m' : Model} (same : SameOutline m m') {id : ElementId} :
    (∃ e, m'.get? id = some e) ↔ ∃ e, m.get? id = some e := by
  have key := same id
  cases h : m.get? id <;> cases h' : m'.get? id <;> simp_all

theorem SameOutline.closed {m' : Model} (same : SameOutline m m') (closed : m.Closed) :
    m'.Closed where
  owner_exists h := by
    rw [same.parent?] at h
    exact same.exists_get?.mpr (closed.owner_exists h)
  noteContents id := (same.noteContents id).trans (closed.noteContents id)

theorem SameOutline.wellFormed {m' : Model} (same : SameOutline m m') (wf : m.WellFormed) :
    m'.WellFormed where
  toSlotsSound := same.slotsSound wf.toSlotsSound
  toClosed := same.closed wf.toClosed
  acyclic := (acyclic_of_parent?_eq same.parent?).mpr wf.acyclic

/-! ## The bound on chains -/

theorem ownerChainWithin_succ (depth : Nat) (id : ElementId) :
    m.ownerChainWithin (depth + 1) id =
      id :: (m.parent? id).elim [] (m.ownerChainWithin depth) := rfl

/-- A chain that ends is listed whole as soon as the bound reaches its length. -/
theorem Rooted.exists_chain {id : ElementId} (rooted : m.Rooted id) :
    ∃ chain : List ElementId,
      (∀ depth, chain.length ≤ depth → m.ownerChainWithin depth id = chain) ∧ chain.Nodup ∧
        ∀ x ∈ chain, m.OnChain id x := by
  induction rooted with
  | @top id none =>
    refine ⟨[id], ?_, List.nodup_singleton id, ?_⟩
    · intro depth enough
      cases depth with
      | zero => exact absurd enough (by simp)
      | succ depth =>
        rw [ownerChainWithin_succ, none]
        rfl
    · intro x here
      rw [List.mem_singleton.mp here]
      exact .self
  | @member id p above rest ih =>
    obtain ⟨chain, listed, nodup, on⟩ := ih
    refine ⟨id :: chain, ?_, List.nodup_cons.mpr ⟨?_, nodup⟩, ?_⟩
    · intro depth enough
      cases depth with
      | zero => exact absurd enough (by simp)
      | succ depth =>
        rw [ownerChainWithin_succ, above]
        exact congrArg (id :: ·) (listed depth (Nat.le_of_succ_le_succ enough))
    · intro back
      exact (Rooted.member above rest).not_loop above (on id back)
    · intro x here
      rcases List.mem_cons.mp here with rfl | inChain
      · exact .self
      · exact .head above (on x inChain)

/-- A chain that does not end is cut off at every bound. -/
theorem length_ownerChainWithin {id : ElementId} (endless : ¬ m.Rooted id) (depth : Nat) :
    (m.ownerChainWithin depth id).length = depth := by
  induction depth generalizing id with
  | zero => rfl
  | succ depth ih =>
    cases above : m.parent? id with
    | none => exact absurd (.top above) endless
    | some p =>
      have next : ¬ m.Rooted p := fun rooted => endless (.member above rooted)
      rw [ownerChainWithin_succ, above]
      simpa using ih next

theorem Closed.exists_of_onChain (closed : m.Closed) {id x : ElementId} (chain : m.OnChain id x)
    (there : ∃ e, m.get? id = some e) : ∃ e, m.get? x = some e := by
  cases chain with
  | self => exact there
  | up _ next => exact closed.owner_exists next

theorem lt_size_of_get? {id : ElementId} {e : Element} (found : m.get? id = some e) :
    id.index < m.size := by
  unfold get? at found
  exact (Array.getElem?_eq_some_iff.mp found).1

theorem length_le_size {chain : List ElementId} (nodup : chain.Nodup)
    (there : ∀ x ∈ chain, ∃ e, m.get? x = some e) : chain.length ≤ m.size := by
  have inside : chain ⊆ m.ids := by
    intro x member
    obtain ⟨e, found⟩ := there x member
    exact List.mem_map.mpr ⟨x.index, List.mem_range.mpr (lt_size_of_get? found), rfl⟩
  have shorter := (List.subperm_of_subset nodup inside).length_le
  simpa [ids] using shorter

namespace WellFormed

/-- Where ownership is acyclic, chains are listed whole. -/
theorem ownerChain_eq (wf : m.WellFormed) {id : ElementId} {e : Element}
    (found : m.get? id = some e) {depth : Nat} (enough : m.size ≤ depth) :
    m.ownerChainWithin depth id = m.ownerChain id ∧ (m.ownerChain id).length ≤ m.size ∧
      ∀ x ∈ m.ownerChain id, m.OnChain id x := by
  obtain ⟨chain, listed, nodup, on⟩ := (wf.acyclic id).exists_chain
  have short : chain.length ≤ m.size :=
    length_le_size nodup fun x member => wf.exists_of_onChain (on x member) ⟨e, found⟩
  have whole : m.ownerChain id = chain := listed m.size short
  rw [whole]
  exact ⟨listed depth (Nat.le_trans short enough), short, on⟩

theorem ownerChain_of_parent? (wf : m.WellFormed) {id p : ElementId}
    (above : m.parent? id = some p) : m.ownerChain id = id :: m.ownerChain p := by
  obtain ⟨e, found⟩ := exists_of_parent? above
  obtain ⟨e', foundOwner⟩ := wf.owner_exists above
  have longer := (wf.ownerChain_eq found (Nat.le_succ m.size)).1
  rw [← longer, ownerChainWithin_succ, above]
  rfl

/-! ## The bound on traversals -/

/-- A recursion over what elements hold does not depend on its bound, if that is not below the size
of the model: a chain of containers and the levels left to go never add up to less. -/
theorem eq_of_deep {β : Type} (wf : m.WellFormed) {f : Nat → ElementId → β}
    (step : ∀ depth depth' id, (∀ c ∈ m.allMembers id, f depth c = f depth' c) →
      f (depth + 1) id = f (depth' + 1) id) {depth depth' : Nat} {id : ElementId} {e : Element}
    (found : m.get? id = some e) (enough : m.size < (m.ownerChain id).length + depth)
    (enough' : m.size < (m.ownerChain id).length + depth') : f depth id = f depth' id := by
  have short := (wf.ownerChain_eq found (Nat.le_refl m.size)).2.1
  induction depth generalizing depth' id e with
  | zero => omega
  | succ depth ih =>
    cases depth' with
    | zero => omega
    | succ depth' =>
      refine step depth depth' id fun c held => ?_
      obtain ⟨slot, held⟩ := mem_allMembers.mp held
      have above := wf.parent held
      obtain ⟨e', foundMember⟩ := exists_of_parent? above
      have longer : (m.ownerChain c).length = (m.ownerChain id).length + 1 := by
        rw [wf.ownerChain_of_parent? above, List.length_cons]
      exact ih foundMember (by omega) (by omega)
        (wf.ownerChain_eq foundMember (Nat.le_refl m.size)).2.1

end WellFormed

theorem length_ownerChain_pos {id : ElementId} {e : Element} (found : m.get? id = some e) :
    0 < (m.ownerChain id).length := by
  unfold ownerChain
  cases size : m.size with
  | zero => exact absurd (lt_size_of_get? found) (by omega)
  | succ n => simp [ownerChainWithin]

theorem sortClasses_perm (classes : List ElementId) : (m.sortClasses classes).Perm classes := by
  have sorted := (List.mergeSort_perm (classes.map m.classKey) ClassKey.le).map (·.id)
  simpa [sortClasses, classKey, Function.comp_def] using sorted

theorem note_contents_eq (id : ElementId) :
    ((m.body? id).bind Body.note?).elim [] (·.contents) = m.noteContents id := by
  unfold Model.noteContents
  cases m.body? id <;> rfl

/-- What a traversal visits below an element is held by it. -/
theorem Closed.visited_subset (closed : m.Closed) {c : Metaclass} {id x : ElementId}
    (visited : x ∈ m.visited c id) : x ∈ m.allMembers id := by
  rw [mem_allMembers]
  have sorted : x ∈ m.sortedClasses id → x ∈ m.members .classes id :=
    fun h => (sortClasses_perm _).mem_iff.mp h
  cases c <;> simp only [Model.visited, List.mem_append, List.not_mem_nil, note_contents_eq,
    closed.noteContents] at visited
  case eModelElement => exact ⟨_, visited⟩
  case ePackage =>
    rcases visited with (h | h) | h
    · exact ⟨_, h⟩
    · exact ⟨_, sorted h⟩
    · exact ⟨_, h⟩
  case eClassifier => exact ⟨_, visited⟩
  case eClass =>
    rcases visited with ((h | h) | h) | h <;> exact ⟨_, h⟩
  case eEnum => exact ⟨_, visited⟩
  case eTypedElement => exact ⟨_, visited⟩
  case eOperation => rcases visited with h | h <;> exact ⟨_, h⟩
  case eTypeParameter => exact ⟨_, visited⟩
  case eGenericType => rcases visited with (h | h) | h <;> exact ⟨_, h⟩

section Walk

variable {ε σ : Type}

theorem foldlM_congr {α : Type} {f g : σ → α → Except ε σ} {l : List α}
    (same : ∀ a ∈ l, ∀ s, f s a = g s a) (s : σ) : l.foldlM f s = l.foldlM g s := by
  induction l generalizing s with
  | nil => rfl
  | cons a l ih =>
    rw [List.foldlM_cons, List.foldlM_cons, same a List.mem_cons_self s]
    congr 1
    funext next
    exact ih (fun b member => same b (List.mem_cons_of_mem a member)) next

theorem walkLineage_congr {v : Visitor ε σ} {visit visit' : σ → ElementId → Except (ε × σ) σ}
    {id : ElementId} (same : ∀ c, ∀ x ∈ m.visited c id, ∀ s, visit s x = visit' s x)
    (lineage : List Metaclass) (s : σ) :
    m.walkLineage v visit id lineage s = m.walkLineage v visit' id lineage s := by
  induction lineage generalizing s with
  | nil => rfl
  | cons c general ih => simp only [walkLineage, ih, foldlM_congr (same c)]

/-- Where ownership is acyclic, a traversal reaches no element at its bound. -/
theorem WellFormed.walkWithin_eq (wf : m.WellFormed) (v : Visitor ε σ) {depth : Nat}
    (enough : m.size ≤ depth) (s : σ) (id : ElementId) :
    m.walkWithin v depth s id = m.walk v id s := by
  have step (depth depth' : Nat) (id : ElementId)
      (same : ∀ c ∈ m.allMembers id, (m.walkWithin v depth · c) = (m.walkWithin v depth' · c)) :
      (m.walkWithin v (depth + 1) · id) = (m.walkWithin v (depth' + 1) · id) := by
    funext s
    exact walkLineage_congr
      (fun c x visited s => congrFun (same x (wf.visited_subset visited)) s) (m.lineage id) s
  cases found : m.get? id with
  | none =>
    have nothing : m.lineage id = [] := by simp [lineage, kind?, found]
    cases depth <;> cases size : m.size <;> simp [walk, size, walkWithin, nothing, walkLineage]
  | some e =>
    have pos := length_ownerChain_pos found
    have deep : (m.walkWithin v depth · id) = (m.walkWithin v m.size · id) :=
      wf.eq_of_deep (f := fun depth c s => m.walkWithin v depth s c) step found (by omega)
        (by omega)
    exact congrFun deep s

end Walk

/-! ## Runs of calls -/

theorem closed_perform (closed : m.Closed) (call : Call) : (m.perform call).Closed := by
  refine perform_keeps closed (fun _ detached => closed_append closed detached) ?added call
  case added =>
    intro slot owner member m' added
    obtain ⟨container, content, held, there, -, -, ne, -, -, rfl⟩ := add_ok_iff.mp added
    exact closed_attach closed held there ne

theorem closed_run (calls : List Call) : (run calls).Closed := by
  induction calls using List.reverseRecOn with
  | nil => exact closed_empty
  | append_singleton calls call ih =>
    rw [run_append_singleton]
    exact closed_perform ih call

/-- The call succeeds in putting an element into one that it contains, however far down. -/
def ClosesLoop (m : Model) (call : Call) : Prop :=
  ∃ slot owner member m', call = .add slot owner member ∧ m.OnChain owner member ∧
    m.add slot owner member = .ok m'

theorem acyclic_perform_iff (call : Call) :
    (m.perform call).Acyclic ↔ m.Acyclic ∧ ¬ m.ClosesLoop call := by
  cases call with
  | create kind name =>
    have harmless : ¬ m.ClosesLoop (.create kind name) := by
      rintro ⟨slot, owner, member, m', same, -⟩
      cases same
    have same := acyclic_of_parent?_eq (m := m)
      (parent?_append (Element.detached_blank m.nextId kind name))
    exact ⟨fun h => ⟨same.mp h, harmless⟩, fun h => same.mpr h.1⟩
  | add slot owner member =>
    cases added : m.add slot owner member with
    | error error =>
      have harmless : ¬ m.ClosesLoop (.add slot owner member) := by
        rintro ⟨_, _, _, m', same, -, ok⟩
        cases same
        rw [added] at ok
        cases ok
      simp only [perform, added]
      exact ⟨fun h => ⟨h, harmless⟩, fun h => h.1⟩
    | ok m' =>
      have closes : m.ClosesLoop (.add slot owner member) ↔ m.OnChain owner member := by
        constructor
        · rintro ⟨_, _, _, _, same, loop, -⟩
          cases same
          exact loop
        · exact fun loop => ⟨slot, owner, member, m', rfl, loop, added⟩
      simp only [perform, added, closes]
      obtain ⟨container, content, held, there, -, -, ne, free, -, rfl⟩ := add_ok_iff.mp added
      exact acyclic_attach_iff held there ne free

theorem acyclic_run_iff (calls : List Call) :
    (run calls).Acyclic ↔ ¬ Happens ClosesLoop calls := by
  induction calls using List.reverseRecOn with
  | nil =>
    have empty : Acyclic (run []) := fun id => .top (by simp [run, parent?, get?])
    exact ⟨fun _ => not_happens_nil ClosesLoop, fun _ => empty⟩
  | append_singleton calls call ih =>
    rw [run_append_singleton, acyclic_perform_iff, ih, happens_append_singleton, not_or]

theorem wellFormed_run {calls : List Call} (acyclic : (run calls).Acyclic) :
    (run calls).WellFormed where
  toSlotsSound := slotsSound_run calls
  toClosed := closed_run calls
  acyclic := acyclic

/-- Ownership is acyclic after a run exactly if no call of it closed a loop. In that case nothing
contains itself, and neither the loops over containers nor the traversals depend on a bound. An
element below a loop has a container chain without end. -/
theorem ownership_of_run (calls : List Call) :
    ((run calls).Acyclic ↔ ¬ Happens ClosesLoop calls) ∧
    ((run calls).Acyclic →
      (∀ slot p c, c ∈ (run calls).members slot p → ¬ (run calls).Within c p) ∧
      (∀ id e, (run calls).get? id = some e → ∀ depth, (run calls).size ≤ depth →
        ((run calls).ownerChainWithin depth id).find? (run calls).isPackage =
            (run calls).containingPackage? id ∧
          ".".intercalate
              (((run calls).ownerChainWithin depth id).map (run calls).pathSegment).reverse =
            (run calls).qualifiedName id) ∧
      (∀ (ε σ : Type) (v : Visitor ε σ) depth s id, (run calls).size ≤ depth →
        (run calls).walkWithin v depth s id = (run calls).walk v id s)) ∧
    (∀ id, ¬ (run calls).Rooted id →
      ∀ depth, ((run calls).ownerChainWithin depth id).length = depth) := by
  refine ⟨acyclic_run_iff calls, fun acyclic => ⟨?_, ?_, ?_⟩, fun id => length_ownerChainWithin⟩
  · exact fun slot p c held => (slotsSound_run calls).not_within acyclic held
  · intro id e found depth enough
    rw [((wellFormed_run acyclic).ownerChain_eq found enough).1]
    exact ⟨rfl, rfl⟩
  · exact fun ε σ v depth s id enough => (wellFormed_run acyclic).walkWithin_eq v enough s id

/-- Of two packages each may be put into the other. -/
theorem run_mutual_packages :
    ¬ (run [.create .ePackage (some "a"), .create .ePackage (some "b"),
        .add .subpackages ⟨0⟩ ⟨1⟩, .add .subpackages ⟨1⟩ ⟨0⟩]).Acyclic := by
  intro acyclic
  have outer : (run [.create .ePackage (some "a"), .create .ePackage (some "b"),
      .add .subpackages ⟨0⟩ ⟨1⟩, .add .subpackages ⟨1⟩ ⟨0⟩]).parent? ⟨0⟩ = some ⟨1⟩ := by decide
  have inner : (run [.create .ePackage (some "a"), .create .ePackage (some "b"),
      .add .subpackages ⟨0⟩ ⟨1⟩, .add .subpackages ⟨1⟩ ⟨0⟩]).parent? ⟨1⟩ = some ⟨0⟩ := by decide
  exact (acyclic ⟨0⟩).not_loop outer (.up .self inner)

end Metamodel.Model
