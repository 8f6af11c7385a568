import Metamodel.Proofs.Tree

/-!
Traversals as lists of visits.

A visitor that cuts nothing off takes a list of visits that depends on the model alone: an element
is entered and left once for each of its metaclasses, and what it holds is visited in between.

Results:
1. `walk_eq_foldlM`: a traversal goes through its visits one after the other.
2. `WellFormed.visits_perm`: each metaclass of each element of the tree is entered and left once.
-/

namespace Metamodel

/-- A moment of a traversal. -/
inductive Visit
  | entering (c : Metaclass) (id : ElementId)
  | leaving (c : Metaclass) (id : ElementId)
  deriving DecidableEq, Repr

namespace Visit

def element : Visit → ElementId
  | .entering _ id => id
  | .leaving _ id => id

end Visit

namespace Visitor

variable {ε σ : Type}

/-- What a visitor makes of one moment. -/
def take (v : Visitor ε σ) (s : σ) : Visit → Except (ε × σ) σ
  | .entering c id => (v.enter c id s).map Prod.fst
  | .leaving c id => v.leave c id s

/-- A visitor that goes everywhere. -/
structure Steady (v : Visitor ε σ) : Prop where
  descends : v.descend = true
  goesOn : ∀ {c id s next goOn}, v.enter c id s = .ok (next, goOn) → goOn = true

end Visitor

namespace Model

/-- The visits for a lineage of an element; `inner` gives those of a member. -/
def lineageVisits (m : Model) (inner : ElementId → List Visit) (id : ElementId) :
    List Metaclass → List Visit
  | [] => []
  | c :: general =>
    .entering c id ::
      (m.lineageVisits inner id general ++ (m.visited c id).flatMap inner ++ [.leaving c id])

/-- The visits of a traversal that goes at most `depth` levels down. -/
def visitsWithin (m : Model) : Nat → ElementId → List Visit
  | 0, _ => []
  | depth + 1, id => m.lineageVisits (m.visitsWithin depth) id (m.lineage id)

/-- The visits to an element and what it contains. -/
def visits (m : Model) (id : ElementId) : List Visit := m.visitsWithin m.size id

/-- The visits to an element itself. -/
def ownVisits (m : Model) (id : ElementId) : List Visit :=
  (m.lineage id).flatMap fun c => [.entering c id, .leaving c id]

variable {m : Model}

section Walk

variable {ε σ : Type} {v : Visitor ε σ}

theorem foldlM_flatMap {α β : Type} (f : σ → β → Except ε σ) (g : α → List β) (l : List α) (s : σ) :
    (l.flatMap g).foldlM f s = l.foldlM (fun s a => (g a).foldlM f s) s := by
  induction l generalizing s with
  | nil => rfl
  | cons a l ih =>
    rw [List.flatMap_cons, List.foldlM_append, List.foldlM_cons]
    congr 1
    funext next
    exact ih next

theorem walkLineage_eq_foldlM (steady : v.Steady) {visit : σ → ElementId → Except (ε × σ) σ}
    {inner : ElementId → List Visit} (same : ∀ s id, visit s id = (inner id).foldlM v.take s)
    (id : ElementId) (lineage : List Metaclass) (s : σ) :
    m.walkLineage v visit id lineage s = (m.lineageVisits inner id lineage).foldlM v.take s := by
  induction lineage generalizing s with
  | nil => rfl
  | cons c general ih =>
    have members (s : σ) :
        (m.visited c id).foldlM visit s = ((m.visited c id).flatMap inner).foldlM v.take s := by
      rw [foldlM_flatMap]
      exact foldlM_congr (fun x _ s => same s x) s
    rw [walkLineage, lineageVisits, List.foldlM_cons]
    cases entered : v.enter c id s with
    | error failure => simp [Visitor.take, entered, bind, Except.bind, Except.map]
    | ok result =>
      obtain ⟨next, goOn⟩ := result
      cases steady.goesOn entered
      have first : v.take s (.entering c id) = .ok next := by
        simp [Visitor.take, entered, Except.map]
      have last (s : σ) : v.leave c id s = [Visit.leaving c id].foldlM v.take s := by
        simp [Visitor.take]
      rw [first]
      simp only [steady.descends, if_true, ih, members, last, List.foldlM_append, bind_assoc]
      rfl

theorem walkWithin_eq_foldlM (steady : v.Steady) (depth : Nat) (s : σ) (id : ElementId) :
    m.walkWithin v depth s id = (m.visitsWithin depth id).foldlM v.take s := by
  induction depth generalizing s id with
  | zero => rfl
  | succ depth ih => exact walkLineage_eq_foldlM steady ih id (m.lineage id) s

/-- A traversal goes through its visits one after the other. -/
theorem walk_eq_foldlM (steady : v.Steady) (id : ElementId) (s : σ) :
    m.walk v id s = (m.visits id).foldlM v.take s :=
  walkWithin_eq_foldlM steady m.size s id

end Walk

theorem visits_eq_nil {id : ElementId} (missing : m.get? id = none) : m.visits id = [] := by
  have nothing : m.lineage id = [] := by simp [lineage, kind?, missing]
  unfold visits
  cases m.size <;> simp [visitsWithin, nothing, lineageVisits]

theorem lineageVisits_congr {inner inner' : ElementId → List Visit} {id : ElementId}
    (same : ∀ c, ∀ x ∈ m.visited c id, inner x = inner' x) (lineage : List Metaclass) :
    m.lineageVisits inner id lineage = m.lineageVisits inner' id lineage := by
  induction lineage with
  | nil => rfl
  | cons c general ih => rw [lineageVisits, lineageVisits, ih, List.flatMap_congr (same c)]

/-- The visits for a lineage are those to the element itself and those to its members. -/
theorem lineageVisits_perm (inner : ElementId → List Visit) (id : ElementId)
    (lineage : List Metaclass) :
    (m.lineageVisits inner id lineage).Perm
      ((lineage.flatMap fun c => [.entering c id, .leaving c id]) ++
        (lineage.flatMap fun c => m.visited c id).flatMap inner) := by
  induction lineage with
  | nil => exact .refl _
  | cons c general ih =>
    simp only [lineageVisits, List.flatMap_cons, List.flatMap_append, List.cons_append,
      List.nil_append]
    refine .cons _ ((List.perm_append_singleton _ _).trans (.cons _ ?_))
    refine (ih.append_right _).trans ?_
    rw [List.append_assoc]
    exact List.perm_append_comm.append_left _

namespace WellFormed

theorem visits_eq (wf : m.WellFormed) {id : ElementId} {e : Element} (found : m.get? id = some e) :
    m.visits id = m.lineageVisits m.visits id (m.lineage id) := by
  refine wf.eq_succ (f := m.visitsWithin) (fun depth depth' id same => ?_) found
  exact lineageVisits_congr (fun c x visited => same x (wf.visited_subset visited)) (m.lineage id)

/-- A traversal enters and leaves each metaclass of each element of the tree once. -/
theorem visits_perm (wf : m.WellFormed) {root : ElementId} {e : Element}
    (found : m.get? root = some e) : (m.visits root).Perm ((m.tree root).flatMap m.ownVisits) := by
  induction root using wf.treeInduction generalizing e with
  | step root ih =>
    rw [wf.visits_eq found, wf.tree_eq found, List.flatMap_cons, List.flatMap_assoc]
    calc m.lineageVisits m.visits root (m.lineage root)
      _ |>.Perm (m.ownVisits root ++
          ((m.lineage root).flatMap fun c => m.visited c root).flatMap m.visits) :=
        lineageVisits_perm m.visits root (m.lineage root)
      _ |>.Perm (m.ownVisits root ++ (m.allMembers root).flatMap m.visits) :=
        ((wf.visited_perm root).flatMap_right m.visits).append_left _
      _ |>.Perm (m.ownVisits root ++
          (m.allMembers root).flatMap fun c => (m.tree c).flatMap m.ownVisits) := by
        refine (List.Perm.flatMap_left _ fun c held => ?_).append_left _
        obtain ⟨e', there⟩ := exists_of_parent? (wf.parent_of_mem_allMembers held)
        exact ih c held there

end WellFormed

end Model

end Metamodel
