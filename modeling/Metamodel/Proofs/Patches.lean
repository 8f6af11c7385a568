import Metamodel.Proofs.Loaded

/-!
What the patches and marks of a pass change.

A patch changes one link, at the place that it names, and a mark one flag. Every other link and
everything that is neither a link nor a flag stays what it was.

Results:
1. `linkAt_applyPatch`: the links after one patch.
2. `linkAt_foldl_of_mem`, `linkAt_foldl_of_not_mem`: the links after all patches of a pass.
3. `get?_foldl_applyPatch`, `unlinked_foldl_applyPatch`: what no patch changes.
-/

namespace Metamodel

/-- The place of one link. -/
structure LinkSite where
  element : ElementId
  field : LinkField
  index : Nat
  deriving DecidableEq, Repr

def Patch.site (p : Patch) : LinkSite := ⟨p.element, p.field, p.index⟩

/-! ## Bodies -/

namespace Body

theorem links_eq_nil {field : LinkField} {b : Body} (off : field.isOn b.kind = false) :
    b.links field = [] := by
  cases field <;> cases b <;> first | rfl | exact Bool.noConfusion off

theorem head?_set_toList {α : Type} (o : Option α) (index : Nat) (a : α) :
    (o.toList.set index a).head?.toList = o.toList.set index a := by
  cases o <;> cases index <;> rfl

theorem links_setTarget_self (field : LinkField) (index : Nat) (target : ElementId) (b : Body) :
    (b.setTarget field index target).links field =
      (b.links field).set index (.resolved target) := by
  cases field <;> cases b <;> first | rfl | exact head?_set_toList _ index _

theorem links_setTarget_ne {field other : LinkField} (ne : other ≠ field) (index : Nat)
    (target : ElementId) (b : Body) :
    (b.setTarget field index target).links other = b.links other := by
  cases field <;> cases other <;> first | exact absurd rfl ne | (cases b <;> rfl)

/-- Whether a body is that of a package with the mark of resolution. -/
def isMarked (b : Body) : Bool := b.package?.any (·.resolved)

/-- A body, marked as resolved if it is that of a package. -/
def marked (b : Body) : Body := b.mapPackage fun p => { p with resolved := true }

theorem links_marked (field : LinkField) (b : Body) : b.marked.links field = b.links field := by
  cases field <;> cases b <;> rfl

theorem isMarked_marked (b : Body) :
    b.marked.isMarked = (b.isMarked || decide (b.kind = .ePackage)) := by
  cases b <;> simp [marked, isMarked, mapPackage, package?, kind]

/-- A body without its links and without the mark of resolution. -/
def unlinked (b : Body) : Body :=
  LinkField.all.foldl (fun b field => b.setLinks field [])
    (b.mapPackage fun p => { p with resolved := false })

theorem unlinked_setTarget (field : LinkField) (index : Nat) (target : ElementId) (b : Body) :
    (b.setTarget field index target).unlinked = b.unlinked := by
  cases field <;> cases b <;> rfl

theorem unlinked_marked (b : Body) : b.marked.unlinked = b.unlinked := by
  cases b <;> rfl

end Body

/-- An element without its links and without the mark of resolution. -/
def Element.unlinked (e : Element) : Element := { e with body := e.body.unlinked }

namespace Model

/-- The link at a place. -/
def linkAt (m : Model) (site : LinkSite) : Option Link :=
  (m.links site.field site.element)[site.index]?

/-- All links of an element. -/
def allLinks (m : Model) (id : ElementId) : List Link :=
  LinkField.all.flatMap fun field => m.links field id

variable {m : Model}

theorem links_of_get? {id : ElementId} {e : Element} (found : m.get? id = some e)
    (field : LinkField) : m.links field id = e.body.links field := by
  simp [links, body?, found]

theorem isResolved_eq (id : ElementId) :
    m.isResolved id = ((m.body? id).map Body.isMarked).getD false := by
  unfold isResolved package?
  cases m.body? id <;> rfl

theorem get?_modifyBody (id other : ElementId) (f : Body → Body) :
    (m.modifyBody id f).get? other =
      if other = id then (m.get? id).map fun e => { e with body := f e.body } else m.get? other :=
  get?_modify m id other _

theorem body?_modifyBody (id other : ElementId) (f : Body → Body) :
    (m.modifyBody id f).body? other = if other = id then (m.body? id).map f else m.body? other := by
  unfold body?
  rw [get?_modifyBody]
  split
  · cases m.get? id <;> rfl
  · rfl

/-- What a change of bodies keeps is the same in every element. -/
theorem map_body?_modifyBody {β : Type} {id : ElementId} {f : Body → Body} {read : Body → β}
    (keeps : ∀ b, read (f b) = read b) (other : ElementId) :
    ((m.modifyBody id f).body? other).map read = (m.body? other).map read := by
  have key : ((m.modifyBody id f).get? other).map (fun e => read e.body) =
      (m.get? other).map fun e => read e.body :=
    map_get?_modifyBody (fun e => keeps e.body) other
  simpa [body?, Function.comp_def] using key

/-! ## One patch -/

theorem links_applyPatch (p : Patch) (field : LinkField) (id : ElementId) :
    (m.applyPatch p).links field id =
      if id = p.element ∧ field = p.field then (m.links field id).set p.index (.resolved p.target)
      else m.links field id := by
  unfold links applyPatch
  rw [body?_modifyBody]
  by_cases here : id = p.element
  · subst here
    cases m.body? p.element with
    | none => simp
    | some b =>
      by_cases same : field = p.field
      · subst same
        simp [Body.links_setTarget_self]
      · simp [same, Body.links_setTarget_ne same]
  · simp [here]

/-- A patch makes the link at its place, if there is one, point to its target. -/
theorem linkAt_applyPatch (p : Patch) (site : LinkSite) :
    (m.applyPatch p).linkAt site =
      if site = p.site then (m.linkAt site).map fun _ => .resolved p.target else m.linkAt site := by
  obtain ⟨element, field, index⟩ := site
  simp only [linkAt, links_applyPatch, Patch.site, LinkSite.mk.injEq]
  by_cases here : element = p.element ∧ field = p.field
  · rw [if_pos here, List.getElem?_set']
    by_cases same : index = p.index
    · simp [here, same, Function.const_def]
    · simp [same, Ne.symm same]
  · rw [if_neg here, if_neg fun all => here ⟨all.1, all.2.1⟩]

theorem get?_applyPatch {p : Patch} {id : ElementId} (apart : p.element ≠ id) :
    (m.applyPatch p).get? id = m.get? id := by
  rw [applyPatch, get?_modifyBody, if_neg (Ne.symm apart)]

/-- A change of bodies that keeps what is neither link nor mark keeps it in every element. -/
theorem unlinked_modifyBody {id : ElementId} {f : Body → Body}
    (keeps : ∀ b, (f b).unlinked = b.unlinked) (other : ElementId) :
    ((m.modifyBody id f).get? other).map Element.unlinked =
      (m.get? other).map Element.unlinked :=
  map_get?_modifyBody (fun e => by simp [Element.unlinked, keeps]) other

theorem unlinked_applyPatch (p : Patch) (id : ElementId) :
    ((m.applyPatch p).get? id).map Element.unlinked = (m.get? id).map Element.unlinked :=
  unlinked_modifyBody (Body.unlinked_setTarget p.field p.index p.target) id

/-! ## All patches -/

/-- What no step changes is the same after all of them. -/
theorem foldl_unchanged {α β : Type} {f : Model → α → Model} (read : Model → β) {l : List α}
    (step : ∀ m, ∀ a ∈ l, read (f m a) = read m) : read (l.foldl f m) = read m := by
  induction l generalizing m with
  | nil => rfl
  | cons a l ih =>
    rw [List.foldl_cons, ih fun m b member => step m b (List.mem_cons_of_mem a member),
      step m a List.mem_cons_self]

section Patches

variable {patches : List Patch}

theorem linkAt_foldl_of_not_mem {site : LinkSite} (apart : ∀ p ∈ patches, p.site ≠ site) :
    (patches.foldl applyPatch m).linkAt site = m.linkAt site := by
  induction patches generalizing m with
  | nil => rfl
  | cons p rest ih =>
    rw [List.foldl_cons, ih fun q member => apart q (List.mem_cons_of_mem p member),
      linkAt_applyPatch, if_neg (Ne.symm (apart p List.mem_cons_self))]

/-- Where no place is patched twice, the link at the place of a patch points to its target. -/
theorem linkAt_foldl_of_mem (distinct : (patches.map Patch.site).Nodup) {p : Patch}
    (member : p ∈ patches) :
    (patches.foldl applyPatch m).linkAt p.site =
      (m.linkAt p.site).map fun _ => .resolved p.target := by
  induction patches generalizing m with
  | nil => cases member
  | cons q rest ih =>
    rw [List.map_cons, List.nodup_cons] at distinct
    rw [List.foldl_cons]
    rcases List.mem_cons.mp member with rfl | later
    · have apart : ∀ q ∈ rest, q.site ≠ p.site := fun q there same =>
        distinct.1 (same ▸ List.mem_map_of_mem there)
      rw [linkAt_foldl_of_not_mem apart, linkAt_applyPatch, if_pos rfl]
    · have ne : p.site ≠ q.site := fun same => distinct.1 (same ▸ List.mem_map_of_mem later)
      rw [ih distinct.2 later, linkAt_applyPatch, if_neg ne]

theorem get?_foldl_applyPatch {id : ElementId} (apart : ∀ p ∈ patches, p.element ≠ id) :
    (patches.foldl applyPatch m).get? id = m.get? id :=
  foldl_unchanged (fun m => m.get? id) fun _ p member => get?_applyPatch (apart p member)

theorem unlinked_foldl_applyPatch (id : ElementId) :
    ((patches.foldl applyPatch m).get? id).map Element.unlinked =
      (m.get? id).map Element.unlinked :=
  foldl_unchanged (fun m => (m.get? id).map Element.unlinked) fun _ p _ => unlinked_applyPatch p id

end Patches

/-! ## Marks -/

theorem links_markResolved (package : ElementId) (field : LinkField) (id : ElementId) :
    (m.markResolved package).links field id = m.links field id :=
  congrArg (Option.getD · []) (map_body?_modifyBody (Body.links_marked field) id)

theorem get?_markResolved {package id : ElementId} (apart : package ≠ id) :
    (m.markResolved package).get? id = m.get? id := by
  rw [markResolved, get?_modifyBody, if_neg (Ne.symm apart)]

theorem unlinked_markResolved (package id : ElementId) :
    ((m.markResolved package).get? id).map Element.unlinked = (m.get? id).map Element.unlinked :=
  unlinked_modifyBody Body.unlinked_marked id

theorem isResolved_markResolved (package id : ElementId) :
    (m.markResolved package).isResolved id =
      (m.isResolved id || (decide (id = package) && m.isPackage id)) := by
  have isPackage : m.isPackage id = ((m.body? id).map Body.kind = some .ePackage : Bool) := by
    simp only [Model.isPackage, kind?, body?, Option.map_map]
    rfl
  rw [isResolved_eq, isResolved_eq, isPackage]
  change (((m.modifyBody package Body.marked).body? id).map Body.isMarked).getD false = _
  rw [body?_modifyBody]
  by_cases same : id = package
  · subst same
    cases m.body? id with
    | none => simp
    | some b => simp [Body.isMarked_marked]
  · simp [same]

section Marks

variable {packages : List ElementId}

theorem links_foldl_markResolved (field : LinkField) (id : ElementId) :
    (packages.foldl markResolved m).links field id = m.links field id :=
  foldl_unchanged (fun m => m.links field id) fun _ p _ => links_markResolved p field id

theorem get?_foldl_markResolved {id : ElementId} (apart : id ∉ packages) :
    (packages.foldl markResolved m).get? id = m.get? id :=
  foldl_unchanged (fun m => m.get? id) fun _ _ member =>
    get?_markResolved (ne_of_mem_of_not_mem member apart)

theorem unlinked_foldl_markResolved (id : ElementId) :
    ((packages.foldl markResolved m).get? id).map Element.unlinked =
      (m.get? id).map Element.unlinked :=
  foldl_unchanged (fun m => (m.get? id).map Element.unlinked) fun _ p _ =>
    unlinked_markResolved p id

/-- The marked packages are those that were marked before and those that are named. -/
theorem isResolved_foldl_markResolved (id : ElementId) :
    (packages.foldl markResolved m).isResolved id =
      (m.isResolved id || (decide (id ∈ packages) && m.isPackage id)) := by
  induction packages generalizing m with
  | nil => simp
  | cons p rest ih =>
    have isPackage : (m.markResolved p).isPackage id = m.isPackage id := by
      unfold Model.isPackage
      rw [(sameOutline_markResolved m p).kind?]
    rw [List.foldl_cons, ih, isResolved_markResolved, isPackage]
    cases m.isPackage id <;> by_cases here : id = p <;> simp [here]

end Marks

end Model

end Metamodel
