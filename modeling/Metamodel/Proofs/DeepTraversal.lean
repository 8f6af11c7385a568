import Metamodel.Proofs.Resolution

/-!
What a deep traversal logs, and in which order.

A visitor that logs the metaclasses that it watches and never stops enters an element before its
members. The more general metaclasses are entered on the way down and their members are visited on
the way back, so the members of the most general one come first: annotations stand before all else.

Results:
1. `WellFormed.preorder_perm`: the elements of a tree in the order of visits.
2. `walk_logging`: the log of a deep traversal of any loaded model, for any watched metaclasses.
-/

namespace Metamodel

/-- The slots of a kind in the order of visits. -/
def Kind.slots : Kind → List Slot
  | .ePackage => [.annotations, .dataTypes, .classes, .subpackages]
  | .eClass =>
    [.annotations, .typeParameters, .attributes, .references, .operations, .genericSuperTypes]
  | .eDataType => [.annotations, .typeParameters]
  | .eEnum => [.annotations, .typeParameters, .literals]
  | .eEnumLiteral => [.annotations]
  | .eAttribute => [.annotations, .genericType]
  | .eReference => [.annotations, .genericType]
  | .eOperation => [.annotations, .genericType, .parameters, .typeParameters]
  | .eParameter => [.annotations, .genericType]
  | .eTypeParameter => [.annotations, .bounds]
  | .eNote => [.annotations]
  | .eGenericType => [.lowerBound, .upperBound, .typeArguments]

namespace Visit

/-- The step of a log, on entering. -/
def step? : Visit → Option (Metaclass × ElementId)
  | .entering c id => some (c, id)
  | .leaving _ _ => none

end Visit

namespace Model

/-- The members of a slot in the order of visits: classes in class order, others as they were
added. -/
def inOrder (m : Model) (id : ElementId) : Slot → List ElementId
  | .classes => m.sortedClasses id
  | slot => m.members slot id

/-- What an element holds in the order of visits; the contents of an annotation come last. -/
def membersInOrder (m : Model) (id : ElementId) : List ElementId :=
  ((m.kind? id).elim [] Kind.slots).flatMap (m.inOrder id) ++ m.noteContents id

/-- An element before everything below it, at most `depth` levels down. -/
def preorderWithin (m : Model) : Nat → ElementId → List ElementId
  | 0, _ => []
  | depth + 1, id => id :: (m.membersInOrder id).flatMap (m.preorderWithin depth)

/-- An element and everything below it, each before what it holds. -/
def preorder (m : Model) (id : ElementId) : List ElementId := m.preorderWithin m.size id

/-- The steps of a traversal: the moments at which an element is entered. -/
def entries (m : Model) (id : ElementId) : List (Metaclass × ElementId) :=
  (m.visits id).filterMap Visit.step?

variable {m : Model}

/-! ## The members of an element -/

namespace WellFormed

/-- The metaclasses of an element visit its members from the most general one on. -/
theorem visited_eq (wf : m.WellFormed) (id : ElementId) :
    ((m.lineage id).reverse.flatMap fun c => m.visited c id) = m.membersInOrder id := by
  have nothing := wf.noteContents id
  cases known : m.kind? id with
  | none => simp [lineage, membersInOrder, known, nothing]
  | some k =>
    simp only [lineage, membersInOrder, known, Option.elim_some]
    cases k <;>
      simp [Kind.lineage, Kind.metaclass, Metaclass.lineage, Kind.slots, inOrder, visited,
        note_contents_eq, nothing]

theorem membersInOrder_perm (wf : m.WellFormed) (id : ElementId) :
    (m.membersInOrder id).Perm (m.allMembers id) := by
  rw [← wf.visited_eq]
  exact ((m.lineage id).reverse_perm.flatMap_right _).trans (wf.visited_perm id)

theorem mem_membersInOrder (wf : m.WellFormed) {id c : ElementId} :
    c ∈ m.membersInOrder id ↔ c ∈ m.allMembers id :=
  (wf.membersInOrder_perm id).mem_iff

/-! ## The elements of a tree -/

/-- An element comes first; then come its members one after the other, each with all below it. -/
theorem preorder_eq (wf : m.WellFormed) {id : ElementId} {e : Element}
    (found : m.get? id = some e) :
    m.preorder id = id :: (m.membersInOrder id).flatMap m.preorder := by
  refine wf.eq_succ (f := m.preorderWithin) (fun depth depth' id same => ?_) found
  simp only [preorderWithin]
  rw [List.flatMap_congr fun c held => same c (wf.mem_membersInOrder.mp held)]

/-- The preorder has the elements of the tree, each once. -/
theorem preorder_perm (wf : m.WellFormed) {root : ElementId} {e : Element}
    (found : m.get? root = some e) : (m.preorder root).Perm (m.tree root) := by
  induction root using wf.treeInduction generalizing e with
  | step root ih =>
    rw [wf.preorder_eq found, wf.tree_eq found]
    refine .cons root (((wf.membersInOrder_perm root).flatMap_right _).trans ?_)
    refine List.Perm.flatMap_left _ fun c held => ?_
    obtain ⟨e', there⟩ := exists_of_parent? (wf.parent_of_mem_allMembers held)
    exact ih c held there

theorem mem_preorder (wf : m.WellFormed) {root id : ElementId} {e : Element}
    (found : m.get? root = some e) : id ∈ m.preorder root ↔ m.Within root id := by
  rw [(wf.preorder_perm found).mem_iff, wf.mem_tree found]

theorem nodup_preorder (wf : m.WellFormed) {root : ElementId} {e : Element}
    (found : m.get? root = some e) : (m.preorder root).Nodup :=
  (wf.preorder_perm found).nodup_iff.mpr (wf.nodup_tree found)

end WellFormed

/-! ## The log -/

/-- The steps for a lineage are those to the element itself; then come those to its members, for
the most general metaclass first. -/
theorem lineageVisits_steps (inner : ElementId → List Visit) (id : ElementId)
    (lineage : List Metaclass) :
    (m.lineageVisits inner id lineage).filterMap Visit.step? =
      lineage.map (·, id) ++ (lineage.reverse.flatMap fun c => m.visited c id).flatMap
        fun x => (inner x).filterMap Visit.step? := by
  induction lineage with
  | nil => rfl
  | cons c general ih =>
    have members : ((m.visited c id).flatMap inner).filterMap Visit.step? =
        (m.visited c id).flatMap fun x => (inner x).filterMap Visit.step? :=
      List.filterMap_flatMap
    simp [lineageVisits, Visit.step?, ih, members]

/-- A traversal enters one element of the tree after the other, and each for its whole lineage. -/
theorem WellFormed.entries_eq (wf : m.WellFormed) {root : ElementId} {e : Element}
    (found : m.get? root = some e) :
    m.entries root = (m.preorder root).flatMap fun x => (m.lineage x).map (·, x) := by
  induction root using wf.treeInduction generalizing e with
  | step root ih =>
    rw [wf.preorder_eq found, List.flatMap_cons, List.flatMap_assoc]
    unfold entries
    rw [wf.visits_eq found, lineageVisits_steps, wf.visited_eq]
    refine congrArg (_ ++ ·) (List.flatMap_congr fun c held => ?_)
    have held := wf.mem_membersInOrder.mp held
    obtain ⟨e', there⟩ := exists_of_parent? (wf.parent_of_mem_allMembers held)
    exact ih c held there

section Log

variable {ε : Type}

/-- A visitor that logs what it watches, fails where `fault` gives an error, and stops nowhere
else. -/
def faulty (watched : Metaclass → Bool) (fault : Metaclass → ElementId → Option ε)
    (descend : Bool) : Visitor ε (Array (Metaclass × ElementId)) :=
  .logging watched (fun _ => false) fault descend

/-- Logs a step and then fails where `fault` gives an error. -/
def record (fault : Metaclass → ElementId → Option ε) (log : Array (Metaclass × ElementId))
    (step : Metaclass × ElementId) :
    Except (ε × Array (Metaclass × ElementId)) (Array (Metaclass × ElementId)) :=
  match fault step.1 step.2 with
  | some error => .error (error, log.push step)
  | none => .ok (log.push step)

variable {watched : Metaclass → Bool} {fault : Metaclass → ElementId → Option ε} {descend : Bool}

theorem faulty_goesOn {c : Metaclass} {id : ElementId} {log next : Array (Metaclass × ElementId)}
    {goOn : Bool} (entered : (faulty watched fault descend).enter c id log = .ok (next, goOn)) :
    goOn = true := by
  simp only [faulty, Visitor.logging] at entered
  split at entered
  · split at entered <;> cases entered
    rfl
  · cases entered
    rfl

theorem take_faulty_entering (c : Metaclass) (id : ElementId)
    (log : Array (Metaclass × ElementId)) :
    (faulty watched fault descend).take log (.entering c id) =
      if watched c then record fault log (c, id) else .ok log := by
  simp only [Visitor.take, faulty, Visitor.logging, record]
  cases watched c with
  | false => rfl
  | true => cases fault c id <;> rfl

/-- Of the moments of a traversal, the steps that are watched are recorded. -/
theorem foldlM_take_faulty (moments : List Visit) (log : Array (Metaclass × ElementId)) :
    moments.foldlM (faulty watched fault descend).take log =
      ((moments.filterMap Visit.step?).filter (watched ·.1)).foldlM (record fault) log := by
  induction moments generalizing log with
  | nil => rfl
  | cons moment moments ih =>
    cases moment with
    | leaving c id => exact ih log
    | entering c id =>
      have first : (Visit.entering c id :: moments).filterMap Visit.step? =
          (c, id) :: moments.filterMap Visit.step? := rfl
      rw [List.foldlM_cons, take_faulty_entering, first]
      cases seen : watched c with
      | false =>
        rw [List.filter_cons_of_neg (by simp [seen])]
        exact ih log
      | true =>
        rw [List.filter_cons_of_pos (by simp [seen]), List.foldlM_cons]
        simp only [if_true, ih]

/-- Where no step fails, all of them are logged. -/
theorem foldlM_record {steps : List (Metaclass × ElementId)}
    (sound : ∀ step ∈ steps, fault step.1 step.2 = none) (log : Array (Metaclass × ElementId)) :
    steps.foldlM (record fault) log = .ok (log ++ steps.toArray) := by
  induction steps generalizing log with
  | nil => simp [pure, Except.pure]
  | cons step steps ih =>
    have logged : record fault log step = .ok (log.push step) := by
      simp [record, sound step List.mem_cons_self]
    rw [List.foldlM_cons, logged, ok_bind,
      ih fun later member => sound later (List.mem_cons_of_mem _ member)]
    simp

/-- A visitor that logs what it watches and goes everywhere. -/
def recorder (ε : Type) (watched : Metaclass → Bool) :
    Visitor ε (Array (Metaclass × ElementId)) :=
  .logging watched (fun _ => false) (fun _ _ => none) true

theorem steady_faulty : (faulty watched fault true).Steady where
  descends := rfl
  goesOn := faulty_goesOn

theorem steady_recorder (watched : Metaclass → Bool) : (recorder ε watched).Steady :=
  steady_faulty

theorem foldlM_recorder (watched : Metaclass → Bool) (moments : List Visit)
    (log : Array (Metaclass × ElementId)) :
    moments.foldlM (recorder ε watched).take log =
      .ok (log ++ ((moments.filterMap Visit.step?).filter (watched ·.1)).toArray) :=
  (foldlM_take_faulty moments log).trans (foldlM_record (fun _ _ => rfl) log)

end Log

/-- A deep traversal never fails and logs, for one element of the tree after the other in preorder,
the watched metaclasses of the element, the most specific first. The preorder names what is reached
through slots, each element once, before its members, which follow in the order of visits. -/
theorem walk_logging {ε : Type} (loaded : m.Loaded) {id : ElementId} {e : Element}
    (found : m.get? id = some e) (watched : Metaclass → Bool) :
    m.walk (.logging (ε := ε) watched (fun _ => false) (fun _ _ => none) true) id #[] =
        .ok ((m.preorder id).flatMap fun x =>
          ((m.lineage x).filter watched).map (·, x)).toArray ∧
      (m.preorder id).Nodup ∧
      (∀ x, x ∈ m.preorder id ↔ m.Within id x) ∧
      ∀ x, m.Within id x → m.preorder x = x :: (m.membersInOrder x).flatMap m.preorder := by
  have wf := loaded.wellFormed
  refine ⟨?log, (wf.preorder_perm found).nodup_iff.mpr (wf.nodup_tree found),
    fun x => wf.mem_preorder found, ?equation⟩
  case log =>
    calc m.walk (recorder ε watched) id #[]
      _ = (m.visits id).foldlM (recorder ε watched).take #[] :=
        walk_eq_foldlM (steady_recorder watched) id #[]
      _ = .ok (#[] ++ ((m.entries id).filter (watched ·.1)).toArray) :=
        foldlM_recorder watched (m.visits id) #[]
      _ = _ := by
        rw [wf.entries_eq found, Array.empty_append, List.filter_flatMap]
        simp only [List.filter_map]
        rfl
  case equation =>
    intro x within
    have there : ∃ e, m.get? x = some e := by
      cases within with
      | self => exact ⟨e, found⟩
      | member _ held => exact exists_of_parent? (wf.parent held)
    obtain ⟨e', there⟩ := there
    exact wf.preorder_eq there

/-- The annotation of the inner package is entered before its data type, which stands before it in
the document. -/
theorem walk_logging_shadowing :
    shadowing.Loaded ∧ (∃ e, shadowing.get? ⟨0⟩ = some e) ∧
      shadowing.walk (.logging (ε := Empty) (· = .eModelElement) (fun _ => false)
        (fun _ _ => none) true) ⟨0⟩ #[] =
        .ok #[(.eModelElement, ⟨0⟩), (.eModelElement, ⟨1⟩), (.eModelElement, ⟨2⟩),
          (.eModelElement, ⟨4⟩), (.eModelElement, ⟨3⟩)] := by
  have there : (shadowing.get? ⟨0⟩).isSome := by decide +kernel
  obtain ⟨e, found⟩ := Option.isSome_iff_exists.mp there
  refine ⟨loaded_shadowing, ⟨e, found⟩, (walk_logging loaded_shadowing found _).1.trans ?_⟩
  have log : ((shadowing.preorder ⟨0⟩).flatMap fun x =>
      ((shadowing.lineage x).filter fun c => decide (c = .eModelElement)).map (·, x)) =
      [(.eModelElement, ⟨0⟩), (.eModelElement, ⟨1⟩), (.eModelElement, ⟨2⟩), (.eModelElement, ⟨4⟩),
        (.eModelElement, ⟨3⟩)] := by
    decide +kernel
  rw [log]

end Model

end Metamodel
