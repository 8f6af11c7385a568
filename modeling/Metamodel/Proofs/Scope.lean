import Metamodel.Proofs.Visits

/-!
The packages that are open during a traversal.

A package is open from its first visit to its last one. Whatever is visited in between, the open
packages are those on the container chain of the element, up to where the traversal began.

Results:
1. `WellFormed.head?_scope`: the innermost package in scope is the nearest one on the container
   chain.
2. `WellFormed.inside_opened`: at every visit, the open packages are the packages in scope.
-/

namespace Metamodel

namespace Kind

theorem lineage_ePackage : ePackage.lineage =
    .ePackage :: [.eNamedElement, .eModelElement, .anything] := rfl

theorem not_mem_lineage_of_ne {k : Kind} (other : k ≠ .ePackage) : .ePackage ∉ k.lineage := by
  cases k <;> first | exact absurd rfl other | decide

end Kind

namespace Visit

/-- The packages that are open after a visit, innermost first. -/
def opens (opened : List ElementId) : Visit → List ElementId
  | .entering c id => if c = .ePackage then id :: opened else opened
  | .leaving c _ => if c = .ePackage then opened.tail else opened

/-- The packages that are open between entering and leaving: those after entering and those before
leaving. -/
def inside (opened : List ElementId) : Visit → List ElementId
  | .entering c id => opens opened (.entering c id)
  | .leaving _ _ => opened

/-- The packages that are open inside each visit. -/
def withOpened : List ElementId → List Visit → List (List ElementId × Visit)
  | _, [] => []
  | opened, v :: rest => (v.inside opened, v) :: withOpened (v.opens opened) rest

theorem withOpened_append (opened : List ElementId) (first second : List Visit) :
    withOpened opened (first ++ second) =
      withOpened opened first ++ withOpened (first.foldl opens opened) second := by
  induction first generalizing opened with
  | nil => rfl
  | cons v first ih => simp only [List.cons_append, withOpened, ih, List.foldl_cons]

theorem length_withOpened (opened : List ElementId) (visits : List Visit) :
    (withOpened opened visits).length = visits.length := by
  induction visits generalizing opened with
  | nil => rfl
  | cons v visits ih => simp only [withOpened, List.length_cons, ih]

end Visit

namespace Model

/-- The packages on the container chain of an element up to `root`, innermost first. -/
def scope (m : Model) (root id : ElementId) : List ElementId :=
  ((m.ownerChain id).takeWhile (· ≠ root) ++ [root]).filter m.isPackage

variable {m : Model} {root : ElementId}

namespace WellFormed

theorem ownerChain_eq_cons (wf : m.WellFormed) {id : ElementId} {e : Element}
    (found : m.get? id = some e) :
    m.ownerChain id = id :: (m.parent? id).elim [] m.ownerChain := by
  cases above : m.parent? id with
  | none =>
    have longer := (wf.ownerChain_eq found (Nat.le_succ m.size)).1
    rw [← longer, ownerChainWithin_succ, above]
    rfl
  | some p => exact wf.ownerChain_of_parent? above

theorem scope_self (wf : m.WellFormed) {e : Element} (found : m.get? root = some e) :
    m.scope root root = [root].filter m.isPackage := by
  simp [scope, wf.ownerChain_eq_cons found]

/-- A package opens a scope of its own; every other member has the scope of what holds it. -/
theorem scope_member (wf : m.WellFormed) {p c : ElementId} (within : m.Within root p)
    (held : c ∈ m.allMembers p) :
    m.scope root c = if m.isPackage c then c :: m.scope root p else m.scope root p := by
  have above := wf.parent_of_mem_allMembers held
  have ne : c ≠ root := by
    rintro rfl
    exact (wf.acyclic c).not_loop above (wf.onChain within)
  simp only [scope, wf.ownerChain_of_parent? above]
  simp [ne, List.filter_cons]

theorem head?_scope (wf : m.WellFormed) (isRoot : m.isPackage root) {id : ElementId}
    (within : m.Within root id) : (m.scope root id).head? = m.containingPackage? id := by
  induction within with
  | self =>
    obtain ⟨e, found⟩ := get?_of_isPackage isRoot
    simp [wf.scope_self found, containingPackage?, wf.ownerChain_eq_cons found, isRoot]
  | @member slot p c within held ih =>
    have above := wf.parent held
    rw [wf.scope_member within (mem_allMembers.mpr ⟨slot, held⟩), containingPackage?,
      wf.ownerChain_of_parent? above, List.find?_cons]
    cases m.isPackage c with
    | true => rfl
    | false => exact ih

end WellFormed

/-! ## Visits -/

/-- The open packages are those in scope at each of the visits, and the same ones after them as
before. -/
structure KeepsScope (m : Model) (root : ElementId) (opened : List ElementId)
    (visits : List Visit) : Prop where
  inside : Visit.withOpened opened visits = visits.map fun v => (m.scope root v.element, v)
  closed : visits.foldl Visit.opens opened = opened

namespace KeepsScope

variable {opened : List ElementId}

theorem nil : m.KeepsScope root opened [] := ⟨rfl, rfl⟩

theorem append {first second : List Visit} (keepsFirst : m.KeepsScope root opened first)
    (keepsSecond : m.KeepsScope root opened second) :
    m.KeepsScope root opened (first ++ second) where
  inside := by
    rw [Visit.withOpened_append, keepsFirst.closed, keepsFirst.inside, keepsSecond.inside,
      List.map_append]
  closed := by rw [List.foldl_append, keepsFirst.closed, keepsSecond.closed]

theorem flatMap {α : Type} {l : List α} {f : α → List Visit}
    (keeps : ∀ a ∈ l, m.KeepsScope root opened (f a)) : m.KeepsScope root opened (l.flatMap f) := by
  induction l with
  | nil => exact nil
  | cons a l ih =>
    rw [List.flatMap_cons]
    exact (keeps a List.mem_cons_self).append
      (ih fun b member => keeps b (List.mem_cons_of_mem a member))

/-- Below the metaclass of packages, nothing is opened for the element itself. -/
theorem lineageVisits {id : ElementId} {inner : ElementId → List Visit} {lineage : List Metaclass}
    (plain : .ePackage ∉ lineage)
    (members : ∀ c ∈ lineage, ∀ x ∈ m.visited c id, m.KeepsScope root (m.scope root id) (inner x)) :
    m.KeepsScope root (m.scope root id) (m.lineageVisits inner id lineage) := by
  induction lineage with
  | nil => exact nil
  | cons c general ih =>
    have other : c ≠ .ePackage := fun same => plain (same ▸ List.mem_cons_self)
    have entering : m.KeepsScope root (m.scope root id) [.entering c id] :=
      ⟨by simp [Visit.withOpened, Visit.inside, Visit.opens, Visit.element, other],
        by simp [Visit.opens, other]⟩
    have leaving : m.KeepsScope root (m.scope root id) [.leaving c id] :=
      ⟨by simp [Visit.withOpened, Visit.inside, Visit.element], by simp [Visit.opens, other]⟩
    have rest := ih (fun there => plain (List.mem_cons_of_mem c there))
      fun d known => members d (List.mem_cons_of_mem c known)
    exact entering.append ((rest.append (flatMap (members c List.mem_cons_self))).append leaving)

/-- A package is open for everything that is visited between entering it and leaving it. -/
theorem package {id : ElementId} {visits : List Visit} (own : m.scope root id = id :: opened)
    (keeps : m.KeepsScope root (id :: opened) visits) :
    m.KeepsScope root opened
      (.entering .ePackage id :: (visits ++ [.leaving .ePackage id])) where
  inside := by
    simp [Visit.withOpened, Visit.withOpened_append, Visit.inside, Visit.opens, Visit.element,
      keeps.inside, keeps.closed, own]
  closed := by simp [Visit.opens, keeps.closed]

end KeepsScope

namespace WellFormed

theorem keepsScope_visits (wf : m.WellFormed) {id : ElementId} {e : Element}
    (found : m.get? id = some e) (within : m.Within root id) {opened : List ElementId}
    (own : m.scope root id = if m.isPackage id then id :: opened else opened) :
    m.KeepsScope root opened (m.visits id) := by
  induction id using wf.treeInduction generalizing e opened with
  | step id ih =>
    have members (c : Metaclass) : ∀ x ∈ m.visited c id,
        m.KeepsScope root (m.scope root id) (m.visits x) := by
      intro x visited
      have held := wf.visited_subset visited
      obtain ⟨e', there⟩ := exists_of_parent? (wf.parent_of_mem_allMembers held)
      exact ih x held there (within.of_mem_allMembers held) (wf.scope_member within held)
    have lineage : m.lineage id = e.kind.lineage := by simp [Model.lineage, kind?_of_get? found]
    rw [wf.visits_eq found, lineage]
    by_cases isPackage : e.kind = .ePackage
    · have opening : m.scope root id = id :: opened := by
        simpa [Model.isPackage, kind?_of_get? found, isPackage] using own
      have rest : m.KeepsScope root (id :: opened)
          (m.lineageVisits m.visits id [.eNamedElement, .eModelElement, .anything] ++
            (m.visited .ePackage id).flatMap m.visits) := by
        rw [← opening]
        exact (KeepsScope.lineageVisits (by decide) fun c _ => members c).append
          (KeepsScope.flatMap (members .ePackage))
      rw [isPackage, Kind.lineage_ePackage, lineageVisits]
      exact rest.package opening
    · -- What is no package opens nothing, so its members are visited with what is open already.
      have same : m.scope root id = opened := by
        simpa [Model.isPackage, kind?_of_get? found, isPackage] using own
      rw [← same]
      exact KeepsScope.lineageVisits (Kind.not_mem_lineage_of_ne isPackage) fun c _ => members c

theorem keepsScope_root (wf : m.WellFormed) {e : Element} (found : m.get? root = some e) :
    m.KeepsScope root [] (m.visits root) :=
  wf.keepsScope_visits found .self (by rw [wf.scope_self found, List.filter_cons]; rfl)

/-- Where a traversal of `root` has come to a visit, the open packages are those in scope. -/
theorem inside_opened (wf : m.WellFormed) {e : Element} (found : m.get? root = some e)
    {before after : List Visit} {v : Visit} (split : m.visits root = before ++ v :: after) :
    v.inside (before.foldl Visit.opens []) = m.scope root v.element := by
  have inside := (wf.keepsScope_root found).inside
  rw [split, Visit.withOpened_append, List.map_append] at inside
  have here := (List.append_inj inside (by rw [Visit.length_withOpened, List.length_map])).2
  simp only [Visit.withOpened, List.map_cons, List.cons.injEq, Prod.mk.injEq] at here
  exact here.1.1

end WellFormed

end Model

end Metamodel
