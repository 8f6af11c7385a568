import Metamodel.Lint
import Metamodel.Proofs.Components
import Metamodel.Proofs.DeepTraversal
import Metamodel.Proofs.RootOrder

/-!
Which inheritance cycles lint reports.

The graph that is searched has an edge for each supertype of a class of the tree that is a class
itself. Classes outside the tree are in it as well, but without edges of their own. So the cycles
that are found are those whose classes all lie in the tree; one that leaves the tree and comes back
is not found from either side.

Results:
1. `cycles_inheritanceCycles`: the cycles among given classes, in any model.
2. `lint_inheritanceCycles`: the errors about cycles that lint gives for a tree.
3. `lint_cycle_across_packages`: a cycle through two packages that is reported for neither.
-/

namespace Metamodel

open Relation (ReflTransGen TransGen)

/-- Lists of elements that are the cycles of a relation: of those that lead back to themselves, the
classes of those that lead to each other. -/
structure Cycles (step : ElementId → ElementId → Prop) (cycles : List (List ElementId)) : Prop where
  nonempty : ∀ cycle ∈ cycles, cycle ≠ []
  /-- Members stand in the order of their creation, each once. -/
  sorted : ∀ cycle ∈ cycles, cycle.Pairwise fun a b => a.index < b.index
  apart : cycles.Pairwise List.Disjoint
  whole : ∀ cycle ∈ cycles, ∀ c ∈ cycle, ∀ d, d ∈ cycle ↔ ReflTransGen step c d ∧ ReflTransGen step d c
  covers : ∀ c, (∃ cycle ∈ cycles, c ∈ cycle) ↔ TransGen step c c

namespace Model

/-- A class and a direct supertype of it that is a class. -/
def Extends (m : Model) (sub sup : ElementId) : Prop := sup ∈ m.superTypes sub ∧ m.isClass sup

/-- A class of the tree and a direct supertype of it that is a class. -/
def ExtendsWithin (m : Model) (root sub sup : ElementId) : Prop :=
  m.Within root sub ∧ m.Extends sub sup

variable {m : Model}

/-! ## The graph -/

theorem mem_superEdges {classes : List ElementId} {sub sup : ElementId} :
    (sub, sup) ∈ m.superEdges classes ↔ sub ∈ classes ∧ m.Extends sub sup := by
  simp only [superEdges, List.mem_flatMap, List.mem_map, List.mem_filter, Extends]
  constructor
  · rintro ⟨cls, member, sup', extends', same⟩
    cases same
    exact ⟨member, extends'⟩
  · rintro ⟨member, extends'⟩
    exact ⟨sub, member, sup, extends', rfl⟩

theorem superEdges_inside (classes : List ElementId) :
    ∀ e ∈ m.superEdges classes, e.1 ∈ m.superNodes classes ∧ e.2 ∈ m.superNodes classes := by
  rintro ⟨sub, sup⟩ edge
  obtain ⟨member, isSuper, isClass⟩ := mem_superEdges.mp edge
  simp only [superNodes, List.mem_eraseDups, List.mem_flatMap]
  refine ⟨⟨sub, member, List.mem_cons_self⟩, sub, member, List.mem_cons_of_mem sub ?_⟩
  exact List.mem_filter.mpr ⟨isSuper, isClass⟩

theorem nodup_eraseDups {α : Type} [DecidableEq α] (l : List α) : l.eraseDups.Nodup := by
  cases l with
  | nil => exact List.nodup_nil
  | cons a l =>
    rw [List.eraseDups_cons, List.nodup_cons, List.mem_eraseDups]
    exact ⟨by simp, nodup_eraseDups _⟩
termination_by l.length
decreasing_by exact Nat.lt_succ_of_le (List.length_filter_le _ _)

/-! ## The cycles among given classes -/

/-- Members of a component in the order of their creation. -/
theorem sorted_mergeSort {component : List ElementId} (nodup : component.Nodup) :
    (component.mergeSort fun a b => a.index ≤ b.index).Pairwise fun a b => a.index < b.index := by
  have sorted : (component.mergeSort fun a b => a.index ≤ b.index).Pairwise
      fun a b => decide (a.index ≤ b.index) = true := by
    refine List.pairwise_mergeSort (fun a b c ab bc => ?_) (fun a b => ?_) component
    · simp only [decide_eq_true_eq] at ab bc ⊢
      exact Nat.le_trans ab bc
    · simpa using Nat.le_total a.index b.index
  have once : (component.mergeSort fun a b => a.index ≤ b.index).Nodup :=
    (List.mergeSort_perm component _).nodup_iff.mpr nodup
  refine (sorted.and once).imp fun {a b} both => ?_
  refine Nat.lt_of_le_of_ne (of_decide_eq_true both.1) fun same => both.2 ?_
  exact congrArg ElementId.mk same

theorem mem_byCreation {component : List ElementId} {c : ElementId} :
    c ∈ component.mergeSort (fun a b => a.index ≤ b.index) ↔ c ∈ component :=
  (List.mergeSort_perm component _).mem_iff

theorem successors_superEdges (classes : List ElementId) :
    (fun a b => b ∈ Graph.successors (m.superEdges classes) a) =
      fun sub sup => sub ∈ classes ∧ m.Extends sub sup := by
  funext sub sup
  rw [Graph.mem_successors, mem_superEdges]

/-- A cycle is a component with an edge inside, sorted. -/
theorem mem_inheritanceCycles {classes cycle : List ElementId} :
    cycle ∈ m.inheritanceCycles classes ↔
      ∃ component ∈ Graph.components (m.superNodes classes) (m.superEdges classes),
        (∃ x ∈ component, ∃ y ∈ component, y ∈ Graph.successors (m.superEdges classes) x) ∧
          component.mergeSort (fun a b => a.index ≤ b.index) = cycle := by
  have inner {component : List ElementId} :
      ((m.superEdges classes).any fun e => component.contains e.1 && component.contains e.2) ↔
        ∃ x ∈ component, ∃ y ∈ component, y ∈ Graph.successors (m.superEdges classes) x := by
    simp only [List.any_eq_true, Bool.and_eq_true, List.contains_iff_mem, Graph.mem_successors,
      Prod.exists]
    constructor
    · rintro ⟨x, y, edge, inX, inY⟩
      exact ⟨x, inX, y, inY, edge⟩
    · rintro ⟨x, inX, y, inY, edge⟩
      exact ⟨x, y, edge, inX, inY⟩
  simp only [inheritanceCycles, List.mem_map, List.mem_filter, inner, and_assoc]

/-- The cycles found among classes are those of the supertype links from these classes. -/
theorem cycles_inheritanceCycles (classes : List ElementId) :
    Cycles (fun sub sup => sub ∈ classes ∧ m.Extends sub sup) (m.inheritanceCycles classes) := by
  have parts := Graph.classes_components (nodup_eraseDups _) (m.superEdges_inside classes)
  rw [← successors_superEdges]
  refine ⟨?nonempty, ?sorted, ?apart, ?whole, ?covers⟩
  case nonempty =>
    intro cycle found
    obtain ⟨component, -, ⟨x, inX, -⟩, rfl⟩ := mem_inheritanceCycles.mp found
    exact List.ne_nil_of_mem (mem_byCreation.mpr inX)
  case sorted =>
    intro cycle found
    obtain ⟨component, member, -, rfl⟩ := mem_inheritanceCycles.mp found
    exact sorted_mergeSort (parts.nodup component member)
  case apart =>
    refine List.pairwise_map.mpr ((parts.apart.filter _).imp fun {a b} disjoint => ?_)
    exact fun c inA inB => disjoint (mem_byCreation.mp inA) (mem_byCreation.mp inB)
  case whole =>
    intro cycle found c here d
    obtain ⟨component, member, -, rfl⟩ := mem_inheritanceCycles.mp found
    rw [mem_byCreation, parts.whole component member c (mem_byCreation.mp here) d]
    rfl
  case covers =>
    intro c
    constructor
    · rintro ⟨cycle, found, here⟩
      obtain ⟨component, member, edge, rfl⟩ := mem_inheritanceCycles.mp found
      exact (parts.inner_edge_iff member (mem_byCreation.mp here)).mp edge
    · intro round
      have known : c ∈ m.superNodes classes := by
        obtain ⟨d, edge, -⟩ := TransGen.head'_iff.mp round
        exact (superEdges_inside classes _ (Graph.mem_successors.mp edge)).1
      obtain ⟨component, member, here⟩ := (parts.covers c).mp known
      have edge := (parts.inner_edge_iff member here).mpr round
      exact ⟨_, mem_inheritanceCycles.mpr ⟨component, member, edge, rfl⟩, mem_byCreation.mpr here⟩

/-! ## The cycles of a tree -/

theorem steps_eq_entries (m : Model) (id : ElementId) : m.steps id = m.entries id := by
  have walked : m.walk (recorder Empty fun _ => true) id #[] =
      .ok (#[] ++ ((m.entries id).filter fun _ => true).toArray) := by
    rw [walk_eq_foldlM (steady_recorder _), foldlM_recorder]
    rfl
  unfold steps
  simp only
  rw [show m.walk (.logging (fun _ => true) (fun _ => false) (fun _ _ => none) true) id #[] = _
    from walked]
  simp

theorem WellFormed.steps_eq (wf : m.WellFormed) {root : ElementId} {e : Element}
    (found : m.get? root = some e) :
    m.steps root = (m.preorder root).flatMap fun x => (m.lineage x).map (·, x) := by
  rw [steps_eq_entries, wf.entries_eq found]

theorem mem_lineage_eClass {id : ElementId} : .eClass ∈ m.lineage id ↔ m.isClass id := by
  unfold lineage isClass
  cases m.kind? id with
  | none => simp
  | some k => cases k <;> decide

/-- The classes that lint looks at are those of the tree. -/
theorem WellFormed.mem_classes (wf : m.WellFormed) {root c : ElementId} {e : Element}
    (found : m.get? root = some e) :
    c ∈ ((m.steps root).filter fun step => step.1 = .eClass).map Prod.snd ↔
      m.Within root c ∧ m.isClass c := by
  rw [wf.steps_eq found, ← wf.mem_preorder found, ← mem_lineage_eClass]
  simp only [List.mem_map, List.mem_filter, List.mem_flatMap, decide_eq_true_eq]
  constructor
  · rintro ⟨step, ⟨⟨x, inside, cls, general, rfl⟩, rfl⟩, rfl⟩
    exact ⟨inside, general⟩
  · rintro ⟨inside, general⟩
    exact ⟨(.eClass, c), ⟨⟨c, inside, .eClass, general, rfl⟩, rfl⟩, rfl⟩

/-- Only classes have supertypes. -/
theorem isClass_of_mem_superTypes {sub sup : ElementId} (isSuper : sup ∈ m.superTypes sub) :
    m.isClass sub := by
  obtain ⟨link, written, -⟩ := List.mem_filterMap.mp isSuper
  unfold links body? at written
  unfold isClass kind?
  cases found : m.get? sub with
  | none => simp [found] at written
  | some e =>
    obtain ⟨id, name, parent, annotations, body⟩ := e
    cases body <;> simp_all [Body.links, Element.kind, Body.kind]

theorem code_flawsAt (c : Metaclass) (id : ElementId) :
    ∀ flaw ∈ m.flawsAt c id, flaw.code ∉ ["inheritance-cycle", "redeclared-feature"] := by
  have ofLink (role : LinkRole) (link : Link) :
      ∀ flaw ∈ linkFlaws role link, flaw.code ∉ ["inheritance-cycle", "redeclared-feature"] := by
    cases link <;> simp [linkFlaws, Flaw.code]
  have ofSuper (link : Link) :
      ∀ flaw ∈ m.superTypeFlaws link, flaw.code ∉ ["inheritance-cycle", "redeclared-feature"] := by
    cases link <;> grind [superTypeFlaws, Flaw.code]
  have ofOpposite (r : EReference) (opposite : ElementId) :
      ∀ flaw ∈ m.oppositeFlaws id r opposite,
        flaw.code ∉ ["inheritance-cycle", "redeclared-feature"] := by
    grind [oppositeFlaws, Flaw.code]
  cases c <;> simp only [flawsAt, List.not_mem_nil, false_implies, implies_true]
  case eNamedElement => grind [nameFlaws, Flaw.code]
  case eTypedElement => grind [typedFlaws, boundFlaws, Flaw.code]
  case eAttribute => grind [attributeFlaws, Flaw.code]
  case eReference => grind [referenceFlaws, Flaw.code]
  case eClass => grind

theorem redeclarations_code {cls : ElementId} {finding : Finding}
    (reported : finding ∈ m.redeclarations cls) : finding.flaw.code = "redeclared-feature" := by
  obtain ⟨f, -, shown⟩ := List.mem_filterMap.mp reported
  obtain ⟨other, -, rfl⟩ := Option.map_eq_some_iff.mp shown
  rfl

/-- What lint reports about an element of the tree is never a cycle. -/
theorem code_findingsAt {step : Metaclass × ElementId} {finding : Finding}
    (reported : finding ∈ m.findingsAt step) : finding.flaw.code ≠ "inheritance-cycle" := by
  rcases List.mem_append.mp reported with flawed | redeclared
  · obtain ⟨flaw, member, rfl⟩ := List.mem_map.mp flawed
    exact fun same => code_flawsAt step.1 step.2 flaw member (by simp [same])
  · obtain ⟨-, redeclared⟩ := List.mem_ite_nil_right.mp redeclared
    rw [redeclarations_code redeclared]
    decide

/-- Except for cycles, the findings of a code are those of the traversal. -/
theorem filter_findings_lint (root : ElementId) {code : String} (other : code ≠ "inheritance-cycle") :
    (m.lint root).findings.filter (·.flaw.code = code) =
      (m.steps root).flatMap fun step => (m.findingsAt step).filter (·.flaw.code = code) := by
  have cycles (classes : List ElementId) :
      ((m.inheritanceCycles classes).map m.cycleFinding).filter (·.flaw.code = code) = [] := by
    refine List.filter_eq_nil_iff.mpr fun finding reported => ?_
    obtain ⟨cycle, -, rfl⟩ := List.mem_map.mp reported
    simpa [cycleFinding, Flaw.code] using other.symm
  rw [lint, List.filter_append, cycles, List.append_nil, List.filter_flatMap]

theorem ExtendsWithin.extends {root sub sup : ElementId} (step : m.ExtendsWithin root sub sup) :
    m.Extends sub sup := step.2

/-- No class of the tree is in a cycle with one outside it. -/
def KeepsCycles (m : Model) (root : ElementId) : Prop :=
  ∀ c d, m.Within root c → ReflTransGen m.Extends c d → ReflTransGen m.Extends d c →
    m.Within root d

namespace KeepsCycles

variable {root c d : ElementId}

theorem path (keeps : m.KeepsCycles root) (inside : m.Within root c)
    (there : ReflTransGen m.Extends c d) (back : ReflTransGen m.Extends d c) :
    ReflTransGen (m.ExtendsWithin root) c d := by
  induction there with
  | refl => exact .refl
  | @tail x y there edge ih =>
    have back' : ReflTransGen m.Extends x c := .head edge back
    exact .tail (ih back') ⟨keeps c x inside there back', edge⟩

theorem mutual_iff (keeps : m.KeepsCycles root) (inside : m.Within root c) :
    ReflTransGen (m.ExtendsWithin root) c d ∧ ReflTransGen (m.ExtendsWithin root) d c ↔
      ReflTransGen m.Extends c d ∧ ReflTransGen m.Extends d c := by
  constructor
  · rintro ⟨there, back⟩
    exact ⟨ReflTransGen.mono (fun _ _ => ExtendsWithin.extends) _ _ there,
      ReflTransGen.mono (fun _ _ => ExtendsWithin.extends) _ _ back⟩
  · rintro ⟨there, back⟩
    exact ⟨keeps.path inside there back, keeps.path (keeps c d inside there back) back there⟩

theorem round_iff (keeps : m.KeepsCycles root) :
    TransGen (m.ExtendsWithin root) c c ↔ m.Within root c ∧ TransGen m.Extends c c := by
  constructor
  · intro round
    obtain ⟨d, edge, -⟩ := TransGen.head'_iff.mp round
    exact ⟨edge.1, TransGen.mono (fun _ _ => ExtendsWithin.extends) _ _ round⟩
  · rintro ⟨inside, round⟩
    obtain ⟨d, edge, back⟩ := TransGen.head'_iff.mp round
    have there : ReflTransGen m.Extends c d := .single edge
    exact .head' ⟨inside, edge⟩ (keeps.path (keeps c d inside there back) back there)

end KeepsCycles

/-- Of what lint reports, the errors about inheritance cycles are those about the cycles among the
classes that it looks at. -/
theorem lint_errors_eq (m : Model) (root : ElementId) :
    (m.lint root).errors.filter (·.flaw.code = "inheritance-cycle") =
      (m.inheritanceCycles (((m.steps root).filter fun step => step.1 = .eClass).map
        Prod.snd)).map m.cycleFinding := by
  have others : ((m.steps root).flatMap m.findingsAt).filter
      (·.flaw.code = "inheritance-cycle") = [] := by
    refine List.filter_eq_nil_iff.mpr fun finding reported => ?_
    obtain ⟨step, -, here⟩ := List.mem_flatMap.mp reported
    simpa using code_findingsAt here
  rw [LintReport.filter_errors, if_pos (by decide), lint, List.filter_append, others,
    List.nil_append]
  refine List.filter_eq_self.mpr fun finding reported => ?_
  obtain ⟨cycle, -, rfl⟩ := List.mem_map.mp reported
  rfl

/-- The errors about inheritance cycles that lint gives for a tree are one for each cycle of the
supertype links from classes of the tree. Where no cycle leaves the tree, these are the cycles that
classes of the tree are in. -/
theorem lint_inheritanceCycles (wf : m.WellFormed) {root : ElementId} {e : Element}
    (found : m.get? root = some e) :
    ∃ cycles, Cycles (m.ExtendsWithin root) cycles ∧
      (m.lint root).errors.filter (·.flaw.code = "inheritance-cycle") =
        cycles.map m.cycleFinding ∧
      (m.KeepsCycles root →
        (∀ c, (∃ cycle ∈ cycles, c ∈ cycle) ↔ m.Within root c ∧ TransGen m.Extends c c) ∧
        ∀ cycle ∈ cycles, ∀ c ∈ cycle, ∀ d,
          d ∈ cycle ↔ ReflTransGen m.Extends c d ∧ ReflTransGen m.Extends d c) := by
  have cycles := m.cycles_inheritanceCycles
    (((m.steps root).filter fun step => step.1 = .eClass).map Prod.snd)
  have step : (fun sub sup => sub ∈ ((m.steps root).filter fun step => step.1 = .eClass).map
      Prod.snd ∧ m.Extends sub sup) = m.ExtendsWithin root := by
    funext sub sup
    rw [wf.mem_classes found, and_assoc]
    refine propext (and_congr_right fun _ => and_iff_right_of_imp fun extends' => ?_)
    exact isClass_of_mem_superTypes extends'.1
  rw [step] at cycles
  refine ⟨_, cycles, m.lint_errors_eq root, fun keeps => ⟨fun c => ?_, ?_⟩⟩
  · rw [cycles.covers, keeps.round_iff]
  · intro cycle member c here d
    have inside : m.Within root c :=
      (keeps.round_iff.mp ((cycles.covers c).mp ⟨cycle, member, here⟩)).1
    rw [cycles.whole cycle member c here d, keeps.mutual_iff inside]

/-- A document with a class that extends itself. -/
def loopDocument : List Event :=
  [.opening "EPackage" (.ofList [("name", "p")]),
    .opening "eClasses" (.ofList [("name", "A"), ("eSuperTypes", "#//A")]), .closing,
    .closing]

/-- The model with the elements of `loopDocument`. -/
def looping : Model := (({} : Model).build "xsi:type" loopDocument none).toOption.elim {} Prod.fst

/-- A class that is its own supertype is reported. -/
theorem lint_inheritanceCycles_looping :
    ∃ m' count, looping.resolve ⟨0⟩ [] = .ok (m', count) ∧ m'.WellFormed ∧
      (∃ e, m'.get? ⟨0⟩ = some e) ∧
      ∃ cycles, Cycles (m'.ExtendsWithin ⟨0⟩) cycles ∧ (∃ cycle ∈ cycles, ⟨1⟩ ∈ cycle) ∧
        (m'.lint ⟨0⟩).errors.filter (·.flaw.code = "inheritance-cycle") =
          cycles.map m'.cycleFinding := by
  have built : ({} : Model).build "xsi:type" loopDocument none = .ok (looping, ⟨0⟩) := rfl
  have reads : ((looping.resolve ⟨0⟩ []).toOption.map fun result =>
      decide ((result.1.get? ⟨0⟩).isSome ∧ (⟨1⟩ : ElementId) ∈ result.1.members .classes ⟨0⟩ ∧
        (⟨1⟩ : ElementId) ∈ result.1.superTypes ⟨1⟩ ∧ result.1.isClass ⟨1⟩)) = some true := by
    decide +kernel
  obtain ⟨⟨m', count⟩, found, shown⟩ := Option.map_eq_some_iff.mp reads
  obtain ⟨there, inside, extends'⟩ := of_decide_eq_true shown
  have resolved := toOption_eq_some_iff.mp found
  have wf := (Loaded.resolved (.document .empty built) resolved).wellFormed
  obtain ⟨e, root⟩ := Option.isSome_iff_exists.mp there
  obtain ⟨cycles, are, listed, -⟩ := lint_inheritanceCycles wf root
  have round : TransGen (m'.ExtendsWithin ⟨0⟩) ⟨1⟩ ⟨1⟩ := .single ⟨.member .self inside, extends'⟩
  exact ⟨m', count, resolved, wf, ⟨e, root⟩, cycles, are, (are.covers ⟨1⟩).mpr round, listed⟩

/-- Where all supertypes of the classes of a tree are outside it, no cycle is reported. -/
theorem lint_errors_eq_nil (wf : m.WellFormed) {root : ElementId} {e : Element}
    (found : m.get? root = some e)
    (outside : ∀ sub ∈ m.tree root, ∀ sup ∈ m.superTypes sub, sup ∉ m.tree root) :
    (m.lint root).errors.filter (·.flaw.code = "inheritance-cycle") = [] := by
  rw [lint_errors_eq, List.map_eq_nil_iff, List.eq_nil_iff_forall_not_mem]
  intro cycle member
  have cycles := m.cycles_inheritanceCycles
    (((m.steps root).filter fun step => step.1 = .eClass).map Prod.snd)
  obtain ⟨c, here⟩ := List.exists_mem_of_ne_nil cycle (cycles.nonempty cycle member)
  have inside {sub : ElementId} (isClass : sub ∈ ((m.steps root).filter fun step =>
      step.1 = .eClass).map Prod.snd) : sub ∈ m.tree root :=
    (wf.mem_tree found).mpr ((wf.mem_classes found).mp isClass).1
  obtain ⟨d, ⟨isClass, extends'⟩, back⟩ :=
    TransGen.head'_iff.mp ((cycles.covers c).mp ⟨cycle, member, here⟩)
  have out := outside c (inside isClass) d extends'.1
  rcases back.cases_head with rfl | ⟨next, ⟨isClass', -⟩, -⟩
  · exact out (inside isClass)
  · exact out (inside isClass')

/-- A document with a class whose supertype is in `wheelDocument`. -/
def axleDocument : List Event :=
  [.opening "EPackage" (.ofList [("name", "p"), ("nsPrefix", "p")]),
    .opening "eClasses" (.ofList [("name", "A"), ("eSuperTypes", "q:EClass q.ecore#//B")]), .closing,
    .closing]

/-- A document with a class whose supertype is in `axleDocument`. -/
def wheelDocument : List Event :=
  [.opening "EPackage" (.ofList [("name", "q"), ("nsPrefix", "q")]),
    .opening "eClasses" (.ofList [("name", "B"), ("eSuperTypes", "p:EClass p.ecore#//A")]), .closing,
    .closing]

/-- The model with the elements of `axleDocument`. -/
def axle : Model := (({} : Model).build "xsi:type" axleDocument none).toOption.elim {} Prod.fst

/-- The model with the elements of both documents. -/
def wheeled : Model := (axle.build "xsi:type" wheelDocument none).toOption.elim {} Prod.fst

/-- Each of two classes in two packages is a proper supertype of itself, and neither package has an
error about it. -/
theorem lint_cycle_across_packages :
    wheeled.Loaded ∧ ∃ m' total, wheeled.resolveAll [⟨0⟩, ⟨2⟩] = .ok (m', total) ∧
      (m'.Within ⟨0⟩ ⟨1⟩ ∧ TransGen m'.Extends ⟨1⟩ ⟨1⟩ ∧
        (m'.lint ⟨0⟩).errors.filter (·.flaw.code = "inheritance-cycle") = []) ∧
      (m'.Within ⟨2⟩ ⟨3⟩ ∧ TransGen m'.Extends ⟨3⟩ ⟨3⟩ ∧
        (m'.lint ⟨2⟩).errors.filter (·.flaw.code = "inheritance-cycle") = []) := by
  have builtAxle : ({} : Model).build "xsi:type" axleDocument none = .ok (axle, ⟨0⟩) := rfl
  have builtWheel : axle.build "xsi:type" wheelDocument none = .ok (wheeled, ⟨2⟩) := rfl
  have loaded : wheeled.Loaded := .document (.document .empty builtAxle) builtWheel
  have reads : ((wheeled.resolveAll [⟨0⟩, ⟨2⟩]).toOption.map fun result =>
      decide (((⟨1⟩ : ElementId) ∈ result.1.members .classes ⟨0⟩ ∧
          (⟨3⟩ : ElementId) ∈ result.1.members .classes ⟨2⟩) ∧
        (((⟨3⟩ : ElementId) ∈ result.1.superTypes ⟨1⟩ ∧ result.1.isClass ⟨3⟩) ∧
          (⟨1⟩ : ElementId) ∈ result.1.superTypes ⟨3⟩ ∧ result.1.isClass ⟨1⟩) ∧
        ∀ root ∈ [(⟨0⟩ : ElementId), ⟨2⟩], (result.1.get? root).isSome ∧
          ∀ sub ∈ result.1.tree root, ∀ sup ∈ result.1.superTypes sub,
            sup ∉ result.1.tree root)) = some true := by
    decide +kernel
  obtain ⟨⟨m', total⟩, found, shown⟩ := Option.map_eq_some_iff.mp reads
  obtain ⟨⟨inP, inQ⟩, ⟨first, second⟩, outside⟩ := of_decide_eq_true shown
  have done := toOption_eq_some_iff.mp found
  have wf : m'.WellFormed := by
    rw [resolveAll_eq] at done
    exact (loaded_resolveEach loaded.withStandardPackage done).wellFormed
  have silent (root : ElementId) (member : root ∈ [⟨0⟩, ⟨2⟩]) :
      (m'.lint root).errors.filter (·.flaw.code = "inheritance-cycle") = [] := by
    obtain ⟨there, apart⟩ := outside root member
    obtain ⟨e, there⟩ := Option.isSome_iff_exists.mp there
    exact lint_errors_eq_nil wf there apart
  refine ⟨loaded, m', total, done, ⟨.member .self inP, ?_, silent ⟨0⟩ (by simp)⟩,
    .member .self inQ, ?_, silent ⟨2⟩ (by simp)⟩
  · exact .tail (.single first) second
  · exact .tail (.single second) first

end Model

end Metamodel
