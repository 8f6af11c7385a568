import Metamodel.Proofs.Loaded
import Metamodel.Proofs.Scope

/-!
The rule by which a link text names an element.

A fragment is followed from the nearest package on the container chain of the element that holds the
link. A qualified reference is followed from the first package with its prefix: among those that
enclose the holder, from the nearest one outward, else among the peers and their subpackages in
preorder. Its target must have the kind that it says.

Results:
1. `SlotsSound.follow?_iff`: what a path of names leads to, by the names of the members themselves.
2. `WellFormed.target_ok_iff`: a pass finds a target exactly if the rule names it.
-/

namespace Metamodel

/-- The value under a key is the first one that has the key for a name, if all values have. -/
theorem OrderedMap.find?_values {α : Type} {map : OrderedMap α} {name : α → String}
    (keyed : ∀ key a, (key, a) ∈ map.entries → name a = key) (key : String) :
    map.values.find? (name · = key) = map.get? key := by
  unfold values get?
  generalize map.entries = entries at keyed
  induction entries with
  | nil => rfl
  | cons entry rest ih =>
    obtain ⟨key', a⟩ := entry
    have same : name a = key' := keyed key' a List.mem_cons_self
    have later := ih fun other b member => keyed other b (List.mem_cons_of_mem _ member)
    by_cases found : key = key'
    · simp [same, found]
    · simp only [List.map_cons, List.find?_cons, List.lookup_cons, same,
        beq_eq_false_iff_ne.mpr found, decide_eq_false (Ne.symm found)]
      exact later

namespace Model

/-! ## Paths -/

/-- The members of an element that can be named below it, in the order of preference. -/
def nameable (m : Model) (id : ElementId) : List ElementId :=
  if m.isPackage id then
    m.members .classes id ++ m.members .dataTypes id ++ m.members .subpackages id
  else m.namedMembers id

/-- A path of names leads from one element to another, by the first member of each name. -/
inductive Leads (m : Model) : ElementId → List String → ElementId → Prop
  | here {id : ElementId} : Leads m id [] id
  | step {id member target : ElementId} {name : String} {path : List String} :
      (m.nameable id).find? (m.label · = name) = some member → Leads m member path target →
      Leads m id (name :: path) target

variable {m : Model}

theorem SlotsSound.find?_members (sound : m.SlotsSound) {slot : Slot} {id : ElementId}
    {e : Element} {table : OrderedMap ElementId} (found : m.get? id = some e)
    (known : e.body.table? slot = some table) (name : String) :
    (m.members slot id).find? (m.label · = name) = table.get? name := by
  have own : slot ≠ .annotations := by
    rintro rfl
    cases h : e.body <;> simp [h, Body.table?, Body.package?, EPackage.table?] at known
  have shown : m.members slot id = table.values := by
    simp [members, found, Element.members, own, Body.members_eq_values known]
  rw [shown]
  exact OrderedMap.find?_values
    (fun key a => sound.keyed ((table?_of_get? found slot).trans known)) name

theorem package?_eq_none {id : ElementId} (other : m.isPackage id = false) :
    m.package? id = none := by
  unfold package? body?
  cases found : m.get? id with
  | none => rfl
  | some e =>
    cases h : e.body <;> simp_all [isPackage, kind?, Element.kind, Body.kind, Body.package?]

/-- A package finds its members under their names. -/
theorem SlotsSound.memberNamed?_eq (sound : m.SlotsSound) (id : ElementId) (name : String) :
    m.memberNamed? id name = (m.nameable id).find? (m.label · = name) := by
  cases isPackage : m.isPackage id with
  | false => simp [memberNamed?, nameable, isPackage, package?_eq_none isPackage]
  | true =>
    have known : m.kind? id = some .ePackage := by simpa [Model.isPackage] using isPackage
    obtain ⟨e, found, isKind⟩ := get?_of_kind? known
    obtain ⟨p, content⟩ : ∃ p, e.body = .ePackage p := by
      cases h : e.body <;> simp_all [Element.kind, Body.kind]
    have package : m.package? id = some p := by
      simp [package?, body?, found, content, Body.package?]
    have table (slot : Slot) {t : OrderedMap ElementId} (known : p.table? slot = some t) :
        (m.members slot id).find? (m.label · = name) = t.get? name :=
      sound.find?_members found (by rw [content]; exact known) name
    have classes := table .classes rfl
    have dataTypes := table .dataTypes rfl
    have subpackages := table .subpackages rfl
    simp only [memberNamed?, package, nameable, isPackage, if_true, List.find?_append, classes,
      dataTypes, subpackages, Option.orElse_eq_orElse, Option.orElse_eq_or, Option.or_assoc]

theorem SlotsSound.follow?_iff (sound : m.SlotsSound) {id target : ElementId} {path : List String} :
    m.follow? id path = some target ↔ m.Leads id path target := by
  induction path generalizing id with
  | nil =>
    rw [follow?, Option.some.injEq]
    constructor
    · rintro rfl
      exact .here
    · rintro ⟨⟩
      rfl
  | cons name path ih =>
    rw [follow?, Option.bind_eq_some_iff, sound.memberNamed?_eq]
    constructor
    · rintro ⟨member, found, rest⟩
      exact .step found (ih.mp rest)
    · rintro ⟨⟩
      next member found rest => exact ⟨member, found, ih.mpr rest⟩

/-! ## Preorder -/

/-- The second list names the packages of the first and everything nested in them, each before what
is nested in it and that before what comes after. -/
inductive Preorder (m : Model) : List ElementId → List ElementId → Prop
  | nil : Preorder m [] []
  | cons {p : ElementId} {rest nested after : List ElementId} :
      Preorder m (m.members .subpackages p) nested → Preorder m rest after →
      Preorder m (p :: rest) (p :: (nested ++ after))

theorem Preorder.unique {packages order order' : List ElementId} (first : m.Preorder packages order)
    (second : m.Preorder packages order') : order = order' := by
  induction first generalizing order' with
  | nil =>
    cases second
    rfl
  | cons _ _ nested after =>
    cases second with
    | cons nested' after' => rw [nested nested', after after']

namespace WellFormed

theorem packageTree_eq (wf : m.WellFormed) (pos : 0 < m.size) (id : ElementId) :
    m.packageTree id = id :: (m.members .subpackages id).flatMap m.packageTree := by
  cases found : m.get? id with
  | none =>
    obtain ⟨n, size⟩ := Nat.exists_eq_succ_of_ne_zero (Nat.ne_of_gt pos)
    have nothing : m.members .subpackages id = [] := by simp [members, found]
    simp [packageTree, size, packageTreeWithin, nothing]
  | some e =>
    refine wf.eq_succ (f := m.packageTreeWithin) (fun depth depth' id same => ?_) found
    simp only [packageTreeWithin]
    rw [List.flatMap_congr fun p nested => same p (mem_allMembers.mpr ⟨_, nested⟩)]

theorem preorder_of_subpackages (wf : m.WellFormed) (pos : 0 < m.size) {packages : List ElementId}
    (trees : ∀ p ∈ packages, m.Preorder (m.members .subpackages p)
      ((m.members .subpackages p).flatMap m.packageTree)) :
    m.Preorder packages (packages.flatMap m.packageTree) := by
  induction packages with
  | nil => exact .nil
  | cons p rest ih =>
    rw [List.flatMap_cons, wf.packageTree_eq pos, List.cons_append]
    exact .cons (trees p List.mem_cons_self)
      (ih fun q later => trees q (List.mem_cons_of_mem p later))

theorem preorder_packageTree (wf : m.WellFormed) (pos : 0 < m.size) (packages : List ElementId) :
    m.Preorder packages (packages.flatMap m.packageTree) := by
  have nested (p : ElementId) : m.Preorder (m.members .subpackages p)
      ((m.members .subpackages p).flatMap m.packageTree) := by
    induction p using wf.treeInduction with
    | step p ih =>
      exact wf.preorder_of_subpackages pos fun q held => ih q (mem_allMembers.mpr ⟨_, held⟩)
  exact wf.preorder_of_subpackages pos fun p _ => nested p

end WellFormed

/-! ## Names -/

/-- The package with this namespace prefix that a link of `holder` means: the nearest one around
the holder within `root`, else the first one in the preorder of the peers. -/
inductive Prefixed (m : Model) (root : ElementId) (peers : List ElementId) (holder : ElementId)
    (nsPrefix : String) : ElementId → Prop
  | enclosing {package : ElementId} :
      (m.scope root holder).find? (m.hasNsPrefix nsPrefix) = some package →
      Prefixed m root peers holder nsPrefix package
  | peer {package : ElementId} {order : List ElementId} :
      (∀ p ∈ m.scope root holder, m.hasNsPrefix nsPrefix p = false) → m.Preorder peers order →
      order.find? (m.hasNsPrefix nsPrefix) = some package →
      Prefixed m root peers holder nsPrefix package

/-- A text that stands in a link of `holder` names an element. -/
inductive Names (m : Model) (root : ElementId) (peers : List ElementId) (holder : ElementId)
    (uri : String) : ElementId → Prop
  | fragment {path : List String} {package target : ElementId} :
      Reference.ofString? uri = some (.fragment path) →
      m.containingPackage? holder = some package → m.Leads package path target →
      Names m root peers holder uri target
  | qualified {nsPrefix kind nsUri : String} {path : List String} {package target : ElementId} :
      Reference.ofString? uri = some (.qualified nsPrefix kind nsUri path) →
      m.Prefixed root peers holder nsPrefix package → m.Leads package path target →
      (m.kind? target).any (·.conformsTo kind) → Names m root peers holder uri target

variable {root holder target : ElementId} {peers : List ElementId}

theorem WellFormed.packageWithPrefix?_iff (wf : m.WellFormed) (pos : 0 < m.size)
    {nsPrefix : String} {package : ElementId} :
    m.packageWithPrefix? (m.scope root holder) peers nsPrefix = some package ↔
      m.Prefixed root peers holder nsPrefix package := by
  have order := wf.preorder_packageTree pos peers
  unfold packageWithPrefix?
  cases found : (m.scope root holder).find? (m.hasNsPrefix nsPrefix) with
  | some nearest =>
    simp only [Option.orElse_eq_orElse, Option.orElse_eq_or, Option.some_or, Option.some.injEq]
    constructor
    · rintro rfl
      exact .enclosing found
    · rintro (here | ⟨none, -, -⟩)
      · rw [found, Option.some.injEq] at here
        exact here
      · exact absurd (List.find?_some found)
          (by simpa using none nearest (List.mem_of_find?_eq_some found))
  | none =>
    simp only [Option.orElse_eq_orElse, Option.orElse_eq_or, Option.none_or]
    have none : ∀ p ∈ m.scope root holder, m.hasNsPrefix nsPrefix p = false := by
      simpa using List.find?_eq_none.mp found
    constructor
    · exact fun first => .peer none order first
    · rintro (here | ⟨-, order', first⟩)
      · rw [found] at here
        exact absurd here.symm (Option.some_ne_none package)
      · rwa [order.unique order']

theorem target_of_unreadable {opened : List ElementId} {uri : String}
    (read : Reference.ofString? uri = none) : m.target opened peers holder uri ≠ .ok target := by
  simp [Model.target, read]

theorem target_fragment_ok_iff {opened : List ElementId} {uri : String} {path : List String}
    (read : Reference.ofString? uri = some (.fragment path)) :
    m.target opened peers holder uri = .ok target ↔
      ∃ package, opened.head? = some package ∧ m.follow? package path = some target := by
  simp only [Model.target, read]
  rw [← Option.bind_eq_some_iff]
  cases opened.head?.bind (m.follow? · path) <;> simp

theorem target_qualified_ok_iff {opened : List ElementId} {uri nsPrefix kind nsUri : String}
    {path : List String}
    (read : Reference.ofString? uri = some (.qualified nsPrefix kind nsUri path)) :
    m.target opened peers holder uri = .ok target ↔
      ∃ package, m.packageWithPrefix? opened peers nsPrefix = some package ∧
        m.follow? package path = some target ∧ (m.kind? target).any (·.conformsTo kind) := by
  simp only [Model.target, read]
  cases m.packageWithPrefix? opened peers nsPrefix with
  | none => simp
  | some package =>
    simp only [Option.some.injEq, exists_eq_left']
    cases reached : m.follow? package path with
    | none => simp
    | some id =>
      by_cases conforms : (m.kind? id).any (·.conformsTo kind)
      · simp only [conforms, if_true, Except.ok.injEq, Option.some.injEq]
        constructor
        · rintro rfl
          exact ⟨rfl, conforms⟩
        · rintro ⟨rfl, -⟩
          rfl
      · simp only [conforms, Bool.false_eq_true, if_false, reduceCtorEq, false_iff,
          Option.some.injEq, not_and]
        rintro rfl
        exact conforms

/-- A pass finds a target exactly if the rule names it. -/
theorem WellFormed.target_ok_iff (wf : m.WellFormed) (isRoot : m.isPackage root)
    (within : m.Within root holder) {uri : String} :
    m.target (m.scope root holder) peers holder uri = .ok target ↔
      m.Names root peers holder uri target := by
  obtain ⟨e, found⟩ := get?_of_isPackage isRoot
  have pos : 0 < m.size := Nat.zero_lt_of_lt (lt_size_of_get? found)
  constructor
  · intro found
    cases read : Reference.ofString? uri with
    | none => exact absurd found (target_of_unreadable read)
    | some reference =>
      cases reference with
      | fragment path =>
        obtain ⟨package, nearest, reached⟩ := (target_fragment_ok_iff read).mp found
        rw [wf.head?_scope isRoot within] at nearest
        exact .fragment read nearest (wf.follow?_iff.mp reached)
      | qualified nsPrefix kind nsUri path =>
        obtain ⟨package, known, reached, conforms⟩ := (target_qualified_ok_iff read).mp found
        exact .qualified read ((wf.packageWithPrefix?_iff pos).mp known) (wf.follow?_iff.mp reached)
          conforms
  · rintro (⟨read, nearest, leads⟩ | ⟨read, known, leads, conforms⟩)
    · rw [← wf.head?_scope isRoot within] at nearest
      exact (target_fragment_ok_iff read).mpr ⟨_, nearest, wf.follow?_iff.mpr leads⟩
    · exact (target_qualified_ok_iff read).mpr
        ⟨_, (wf.packageWithPrefix?_iff pos).mpr known, wf.follow?_iff.mpr leads, conforms⟩

/-- A text names one element at most. -/
theorem WellFormed.names_unique (wf : m.WellFormed) (isRoot : m.isPackage root)
    (within : m.Within root holder) {uri : String} {target' : ElementId}
    (first : m.Names root peers holder uri target)
    (second : m.Names root peers holder uri target') : target = target' :=
  Except.ok.inj (((wf.target_ok_iff isRoot within).mpr first).symm.trans
    ((wf.target_ok_iff isRoot within).mpr second))

end Model

end Metamodel
