import Metamodel.Proofs.Plan

/-!
Passes of resolution.

A pass over the tree of a package succeeds exactly if the rule of names gives every symbolic link in
the tree a target, and then it makes each of them a link to that target. It changes no other link,
and apart from links and marks it changes nothing.

Results:
1. `WellFormed.resolve_ok_iff_settled`: when a pass succeeds, and what it consists of.
2. `resolve_by_rule`: a pass implements the rule of names.
3. `resolve_complete`: what a pass leaves, counts and keeps.
-/

namespace Metamodel

section Patches

variable {aim : LinkSite → String → Option ElementId}

theorem sublist_map_site (sites : List (LinkSite × Link)) :
    ((sites.filterMap (Patch.of? aim)).map Patch.site).Sublist (sites.map Prod.fst) := by
  induction sites with
  | nil => exact .slnil
  | cons entry rest ih =>
    obtain ⟨site, link⟩ := entry
    cases made : Patch.of? aim (site, link) with
    | none =>
      rw [List.filterMap_cons_none made]
      exact ih.cons site
    | some p =>
      have here : p.site = site := by
        cases link with
        | resolved target => cases made
        | symbolic uri =>
          obtain ⟨target, -, rfl⟩ := Option.map_eq_some_iff.mp made
          rfl
      rw [List.filterMap_cons_some made, List.map_cons, here]
      exact ih.cons_cons site

/-- When everything is settled, each symbolic link gets a patch. -/
theorem length_filterMap_of? {sites : List (LinkSite × Link)} (settled : Settled aim sites) :
    (sites.filterMap (Patch.of? aim)).length = sites.countP (!·.2.isResolved) := by
  induction sites with
  | nil => rfl
  | cons entry rest ih =>
    obtain ⟨site, link⟩ := entry
    have later := ih fun site uri there => settled site uri (List.mem_cons_of_mem _ there)
    cases link with
    | resolved target => simpa [List.filterMap_cons, Link.isResolved] using later
    | symbolic uri =>
      obtain ⟨target, known⟩ := settled site uri List.mem_cons_self
      simpa [List.filterMap_cons, Link.isResolved, known] using later

end Patches

namespace Model

variable {m m' : Model} {root : ElementId} {peers : List ElementId} {count : ResolutionCount}

/-! ## The packages of a tree -/

namespace WellFormed

theorem isPackage_of_mem_subpackages (wf : m.WellFormed) {p c : ElementId}
    (nested : c ∈ m.members .subpackages p) : m.isPackage c := by
  have fits := (wf.fits nested).2
  cases known : m.kind? c with
  | none => simp [known] at fits
  | some k => cases k <;> simp_all [isPackage] <;> exact absurd fits (by decide)

/-- Packages are held by packages, and in one slot only. -/
theorem nested_of_isPackage (wf : m.WellFormed) {slot : Slot} {p c : ElementId}
    (held : c ∈ m.members slot p) (isPackage : m.isPackage c) :
    c ∈ m.members .subpackages p ∧ m.isPackage p := by
  obtain ⟨on, fits⟩ := wf.fits held
  have known : m.kind? c = some .ePackage := by simpa [Model.isPackage] using isPackage
  rw [known, Option.any_some] at fits
  have isSlot : slot = .subpackages := by
    cases slot <;> first | rfl | exact absurd fits (by decide)
  subst isSlot
  refine ⟨held, ?_⟩
  cases owner : m.kind? p with
  | none => simp [owner] at on
  | some k => simpa [Model.isPackage, owner, Slot.isOn] using on

theorem packageTree_closed (wf : m.WellFormed) (pos : 0 < m.size) {p c : ElementId}
    (there : p ∈ m.packageTree root) (nested : c ∈ m.members .subpackages p) :
    c ∈ m.packageTree root := by
  induction root using wf.treeInduction with
  | step root ih =>
    rw [wf.packageTree_eq pos, List.mem_cons, List.mem_flatMap] at there ⊢
    rcases there with rfl | ⟨q, inside, below⟩
    · exact .inr ⟨c, nested, by rw [wf.packageTree_eq pos]; exact List.mem_cons_self⟩
    · exact .inr ⟨q, inside, ih q (mem_allMembers.mpr ⟨_, inside⟩) below⟩

/-- The package tree of a package lists the packages that are reached from it through slots. -/
theorem mem_packageTree (wf : m.WellFormed) (isRoot : m.isPackage root) {id : ElementId} :
    id ∈ m.packageTree root ↔ m.Within root id ∧ m.isPackage id := by
  obtain ⟨e, found⟩ := get?_of_isPackage isRoot
  have pos : 0 < m.size := Nat.zero_lt_of_lt (lt_size_of_get? found)
  constructor
  · intro there
    clear found
    induction root using wf.treeInduction with
    | step root ih =>
      rw [wf.packageTree_eq pos, List.mem_cons, List.mem_flatMap] at there
      rcases there with rfl | ⟨p, nested, below⟩
      · exact ⟨.self, isRoot⟩
      · have isPackage := wf.isPackage_of_mem_subpackages nested
        have inside := ih p (mem_allMembers.mpr ⟨_, nested⟩) isPackage below
        exact ⟨.trans (.member .self nested) inside.1, inside.2⟩
  · rintro ⟨within, isPackage⟩
    induction within with
    | self =>
      rw [wf.packageTree_eq pos]
      exact List.mem_cons_self
    | member _ held ih =>
      obtain ⟨nested, owner⟩ := wf.nested_of_isPackage held isPackage
      exact wf.packageTree_closed pos (ih owner) nested

end WellFormed

/-! ## What a pass leaves -/

/-- The symbolic link at a place means an element: its text names it, and it is a class if the link
is one to a supertype. -/
def Aims (m : Model) (root : ElementId) (peers : List ElementId) (site : LinkSite) (uri : String)
    (target : ElementId) : Prop :=
  m.Names root peers site.element uri target ∧ (site.field = .superTypes → m.isClass target)

/-- A pass succeeds exactly if each symbolic link in the tree of a package has a target. -/
theorem WellFormed.resolve_ok_iff_settled (wf : m.WellFormed) :
    m.resolve root peers = .ok (m', count) ↔
      m.isPackage root ∧ Settled (m.aim? root peers) (m.linkSites root) ∧
        m' = (m.packageTree root).foldl markResolved
          (((m.linkSites root).filterMap (Patch.of? (m.aim? root peers))).foldl applyPatch m) ∧
        count = ⟨(m.linkSites root).countP (!·.2.isResolved),
          (m.linkSites root).countP (·.2.isResolved)⟩ := by
  rw [resolve_ok_iff]
  constructor
  · rintro ⟨known, pass, planned, rfl, rfl⟩
    have isRoot : m.isPackage root := by simp [isPackage, known]
    obtain ⟨e, found⟩ := get?_of_isPackage isRoot
    obtain ⟨settled, rfl⟩ := (wf.planResolution_ok_iff found).mp planned
    refine ⟨isRoot, settled, by simp [ResolutionPass.plan], ?_⟩
    simp [ResolutionPass.plan, length_filterMap_of? settled]
  · rintro ⟨isRoot, settled, rfl, rfl⟩
    obtain ⟨e, found⟩ := get?_of_isPackage isRoot
    refine ⟨by simpa [isPackage] using isRoot, _,
      (wf.planResolution_ok_iff found).mpr ⟨settled, rfl⟩, by simp [ResolutionPass.plan], ?_⟩
    simp [ResolutionPass.plan, length_filterMap_of? settled]

theorem WellFormed.settled_iff (wf : m.WellFormed) (isRoot : m.isPackage root) :
    Settled (m.aim? root peers) (m.linkSites root) ↔
      ∀ site uri, m.Within root site.element → m.linkAt site = some (.symbolic uri) →
        ∃ target, m.Aims root peers site uri target := by
  obtain ⟨e, found⟩ := get?_of_isPackage isRoot
  constructor
  · intro settled site uri within there
    obtain ⟨target, known⟩ := settled site uri ((wf.mem_linkSites found).mpr ⟨within, there⟩)
    exact ⟨target, (wf.aim?_iff isRoot within).mp known⟩
  · intro aims site uri met
    obtain ⟨within, there⟩ := (wf.mem_linkSites found).mp met
    obtain ⟨target, aim⟩ := aims site uri within there
    exact ⟨target, (wf.aim?_iff isRoot within).mpr aim⟩

section Outcome

variable (wf : m.WellFormed) (resolved : m.resolve root peers = .ok (m', count))

include wf resolved

theorem linkAt_resolve (site : LinkSite) :
    m'.linkAt site =
      (((m.linkSites root).filterMap
        (Patch.of? (m.aim? root peers))).foldl applyPatch m).linkAt site := by
  obtain ⟨-, -, rfl, -⟩ := wf.resolve_ok_iff_settled.mp resolved
  rw [linkAt, links_foldl_markResolved, linkAt]

/-- A symbolic link in the tree becomes a link to what it means. -/
theorem linkAt_resolve_symbolic {site : LinkSite} {uri : String}
    (within : m.Within root site.element) (there : m.linkAt site = some (.symbolic uri)) :
    ∃ target, m.Aims root peers site uri target ∧ m'.linkAt site = some (.resolved target) := by
  obtain ⟨isRoot, settled, -, -⟩ := wf.resolve_ok_iff_settled.mp resolved
  obtain ⟨e, found⟩ := get?_of_isPackage isRoot
  have met := (wf.mem_linkSites found).mpr ⟨within, there⟩
  obtain ⟨target, known⟩ := settled site uri met
  have patch : ⟨site.element, site.field, site.index, target⟩ ∈
      (m.linkSites root).filterMap (Patch.of? (m.aim? root peers)) :=
    mem_filterMap_of?.mpr ⟨uri, met, known⟩
  have after := linkAt_foldl_of_mem (m := m)
    ((wf.nodup_linkSites found).sublist (sublist_map_site (m.linkSites root))) patch
  refine ⟨target, (wf.aim?_iff isRoot within).mp known, (linkAt_resolve wf resolved site).trans ?_⟩
  exact after.trans (by rw [Patch.site, there, Option.map_some])

/-- No other link changes. -/
theorem linkAt_resolve_other {site : LinkSite}
    (other : ∀ uri, m.Within root site.element → m.linkAt site ≠ some (.symbolic uri)) :
    m'.linkAt site = m.linkAt site := by
  obtain ⟨isRoot, -, -, -⟩ := wf.resolve_ok_iff_settled.mp resolved
  obtain ⟨e, found⟩ := get?_of_isPackage isRoot
  refine (linkAt_resolve wf resolved site).trans (linkAt_foldl_of_not_mem fun p made here => ?_)
  obtain ⟨uri, met, -⟩ := mem_filterMap_of?.mp made
  obtain ⟨within, there⟩ := (wf.mem_linkSites found).mp met
  exact other uri (here ▸ within) (here ▸ there)

/-- Outside the tree, and apart from links and marks, nothing changes. -/
theorem get?_resolve {id : ElementId} (outside : ¬ m.Within root id) : m'.get? id = m.get? id := by
  obtain ⟨isRoot, -, rfl, -⟩ := wf.resolve_ok_iff_settled.mp resolved
  obtain ⟨e, found⟩ := get?_of_isPackage isRoot
  rw [get?_foldl_markResolved fun there => outside ((wf.mem_packageTree isRoot).mp there).1]
  refine get?_foldl_applyPatch fun p made here => ?_
  obtain ⟨uri, met, -⟩ := mem_filterMap_of?.mp made
  exact outside (here ▸ ((wf.mem_linkSites found).mp met).1)

theorem unlinked_resolve (id : ElementId) :
    (m'.get? id).map Element.unlinked = (m.get? id).map Element.unlinked := by
  obtain ⟨-, -, rfl, -⟩ := wf.resolve_ok_iff_settled.mp resolved
  exact (unlinked_foldl_markResolved id).trans (unlinked_foldl_applyPatch id)

theorem isResolved_resolve {id : ElementId} (within : m.Within root id)
    (isPackage : m.isPackage id) : m'.isResolved id := by
  obtain ⟨isRoot, -, rfl, -⟩ := wf.resolve_ok_iff_settled.mp resolved
  have kept (patches : List Patch) :
      (patches.foldl applyPatch m).isPackage id = m.isPackage id := by
    unfold Model.isPackage
    rw [(sameOutline_foldl sameOutline_applyPatch patches m).kind?]
  rw [isResolved_foldl_markResolved, kept, isPackage,
    decide_eq_true ((wf.mem_packageTree isRoot).mpr ⟨within, isPackage⟩)]
  simp

theorem count_resolve :
    count = ⟨((m.tree root).flatMap m.allLinks).countP (!·.isResolved),
      ((m.tree root).flatMap m.allLinks).countP (·.isResolved)⟩ := by
  obtain ⟨isRoot, -, -, rfl⟩ := wf.resolve_ok_iff_settled.mp resolved
  obtain ⟨e, found⟩ := get?_of_isPackage isRoot
  have met (p : Link → Bool) : (m.linkSites root).countP (fun entry => p entry.2) =
      ((m.tree root).flatMap m.allLinks).countP p := by
    rw [← (wf.links_perm found).countP_eq p, List.countP_map]
    rfl
  rw [met (!·.isResolved), met (·.isResolved)]

end Outcome

theorem SameOutline.within_iff (same : SameOutline m m') {id : ElementId} :
    m'.Within root id ↔ m.Within root id := by
  constructor <;> intro within
  · induction within with
    | self => exact .self
    | member _ held ih => exact .member ih (by rwa [← same.members])
  · induction within with
    | self => exact .self
    | member _ held ih => exact .member ih (by rwa [same.members])

theorem size_resolve (resolved : m.resolve root peers = .ok (m', count)) : m'.size = m.size := by
  obtain ⟨-, pass, -, rfl, -⟩ := resolve_ok_iff.mp resolved
  exact (foldl_unchanged size fun _ _ _ => size_modify _ _ _).trans
    (foldl_unchanged size fun _ _ _ => size_modify _ _ _)

/-- A pass over the tree of a package implements the rule of names: it succeeds exactly if each
symbolic link in the tree means an element, and then the link becomes one to that element. The pass
is a walk, and wherever the walk has come the open packages are those on the container chain. -/
theorem resolve_by_rule (loaded : m.Loaded) (root : ElementId) (peers : List ElementId) :
    ((∃ m' count, m.resolve root peers = .ok (m', count)) ↔
      m.isPackage root ∧ ∀ site uri, m.Within root site.element →
        m.linkAt site = some (.symbolic uri) → ∃ target, m.Aims root peers site uri target) ∧
    (∀ m' count, m.resolve root peers = .ok (m', count) →
      ∀ site uri, m.Within root site.element → m.linkAt site = some (.symbolic uri) →
        ∀ target, m'.linkAt site = some (.resolved target) ↔ m.Aims root peers site uri target) ∧
    m.walk (m.resolutionVisitor peers) root {} =
      (m.visits root).foldlM (m.resolutionVisitor peers).take {} ∧
    (∀ before v after pass, m.visits root = before ++ v :: after →
      before.foldlM (m.resolutionVisitor peers).take {} = .ok pass →
      v.inside pass.opened = m.scope root v.element) := by
  have wf := loaded.wellFormed
  refine ⟨?_, ?_, walk_eq_foldlM (steady_resolutionVisitor peers) root {}, ?_⟩
  · constructor
    · rintro ⟨m', count, resolved⟩
      obtain ⟨isRoot, settled, -, -⟩ := wf.resolve_ok_iff_settled.mp resolved
      exact ⟨isRoot, (wf.settled_iff isRoot).mp settled⟩
    · rintro ⟨isRoot, aims⟩
      exact ⟨_, _, wf.resolve_ok_iff_settled.mpr
        ⟨isRoot, (wf.settled_iff isRoot).mpr aims, rfl, rfl⟩⟩
  · intro m' count resolved site uri within there target
    obtain ⟨isRoot, -, -, -⟩ := wf.resolve_ok_iff_settled.mp resolved
    obtain ⟨target', aims, after⟩ := linkAt_resolve_symbolic wf resolved within there
    rw [after, Option.some.injEq, Link.resolved.injEq]
    constructor
    · rintro rfl
      exact aims
    · exact fun other => wf.names_unique isRoot within aims.1 other.1
  · intro before v after pass split taken
    cases found : m.get? root with
    | none =>
      have nothing : m.visits root = [] := visits_eq_nil found
      rw [nothing] at split
      exact absurd split.symm (List.append_ne_nil_of_right_ne_nil _ (List.cons_ne_nil _ _))
    | some e => exact wf.opened_of_foldlM_take found split taken

/-- A document with a package in a package, each with a data type of one name, and a note in the
inner one that refers to that name. -/
def shadowingDocument : List Event :=
  [.opening "EPackage" (.ofList [("name", "zoo")]),
    .opening "eDataTypes" (.ofList [("name", "Food")]), .closing,
    .opening "eSubpackages" (.ofList [("name", "cage")]),
    .opening "eDataTypes" (.ofList [("name", "Food")]), .closing,
    .opening "eAnnotations" (.ofList [("references", "#//Food")]), .closing,
    .closing, .closing]

/-- The model with the elements of `shadowingDocument`, numbered in its order. -/
def shadowing : Model :=
  (({} : Model).build "xsi:type" shadowingDocument none).toOption.elim {} Prod.fst

theorem loaded_shadowing : shadowing.Loaded := by
  have built : ({} : Model).build "xsi:type" shadowingDocument none = .ok (shadowing, ⟨0⟩) := rfl
  exact .document .empty built

theorem resolve_shadowing : ∃ m' count, shadowing.resolve ⟨0⟩ [] = .ok (m', count) ∧
    m'.linkAt ⟨⟨4⟩, .references, 0⟩ = some (.resolved ⟨3⟩) := by
  have reads : (shadowing.resolve ⟨0⟩ []).toOption.map
      (fun result => result.1.linkAt ⟨⟨4⟩, .references, 0⟩) = some (some (.resolved ⟨3⟩)) := by
    decide +kernel
  obtain ⟨⟨m', count⟩, resolved, after⟩ := Option.map_eq_some_iff.mp reads
  exact ⟨m', count, toOption_eq_some_iff.mp resolved, after⟩

/-- The name means the inner data type. -/
theorem resolve_by_rule_shadowing :
    shadowing.Loaded ∧ shadowing.Aims ⟨0⟩ [] ⟨⟨4⟩, .references, 0⟩ "#//Food" ⟨3⟩ := by
  obtain ⟨m', count, resolved, after⟩ := resolve_shadowing
  have inner : ⟨2⟩ ∈ shadowing.members .subpackages ⟨0⟩ := by decide +kernel
  have note : ⟨4⟩ ∈ shadowing.members .annotations ⟨2⟩ := by decide +kernel
  have within : shadowing.Within ⟨0⟩ ⟨4⟩ := .member (.member .self inner) note
  have written : shadowing.linkAt ⟨⟨4⟩, .references, 0⟩ = some (.symbolic "#//Food") := by
    decide +kernel
  exact ⟨loaded_shadowing, ((resolve_by_rule loaded_shadowing ⟨0⟩ []).2.1 m' count resolved
    ⟨⟨4⟩, .references, 0⟩ "#//Food" within written ⟨3⟩).mp after⟩

/-- A pass that succeeds leaves no symbolic link in the tree, lets supertypes be classes, leaves
resolved links alone, marks the packages of the tree and counts each link of it once. Elements
outside the tree do not change, and of those inside it only links and marks. -/
theorem resolve_complete (loaded : m.Loaded) (resolved : m.resolve root peers = .ok (m', count)) :
    (∀ site uri, m'.Within root site.element → m'.linkAt site ≠ some (.symbolic uri)) ∧
    (∀ site uri, m.Within root site.element → m.linkAt site = some (.symbolic uri) →
      ∃ target, m'.linkAt site = some (.resolved target) ∧
        (site.field = .superTypes → m'.isClass target)) ∧
    (∀ site target, m.linkAt site = some (.resolved target) →
      m'.linkAt site = some (.resolved target)) ∧
    (∀ site, m.linkAt site = none → m'.linkAt site = none) ∧
    (∀ id, m.Within root id → m.isPackage id → m'.isResolved id) ∧
    ((m.tree root).Nodup ∧ (∀ id, id ∈ m.tree root ↔ m.Within root id) ∧
      count = ⟨((m.tree root).flatMap m.allLinks).countP (!·.isResolved),
        ((m.tree root).flatMap m.allLinks).countP (·.isResolved)⟩) ∧
    (m'.size = m.size ∧ (∀ id, ¬ m.Within root id → m'.get? id = m.get? id) ∧
      ∀ id, (m'.get? id).map Element.unlinked = (m.get? id).map Element.unlinked) := by
  have wf := loaded.wellFormed
  have same := sameOutline_resolve resolved
  obtain ⟨isRoot, -, -, -⟩ := wf.resolve_ok_iff_settled.mp resolved
  obtain ⟨e, found⟩ := get?_of_isPackage isRoot
  have known (site : LinkSite) {link : Option Link} (there : m.linkAt site = link)
      (other : ∀ uri, link ≠ some (.symbolic uri)) : m'.linkAt site = link :=
    (linkAt_resolve_other wf resolved fun uri _ => there ▸ other uri).trans there
  refine ⟨?none_left, ?rewritten, fun site target there => known site there (by simp),
    fun site there => known site there (by simp), fun id => isResolved_resolve wf resolved,
    ⟨wf.nodup_tree found, fun id => wf.mem_tree found, count_resolve wf resolved⟩,
    size_resolve resolved, fun id => get?_resolve wf resolved, unlinked_resolve wf resolved⟩
  case none_left =>
    intro site uri within there
    cases before : m.linkAt site with
    | none =>
      rw [known site before (by simp)] at there
      cases there
    | some link =>
      cases link with
      | resolved target =>
        rw [known site before (by simp)] at there
        cases there
      | symbolic uri' =>
        obtain ⟨target, -, after⟩ :=
          linkAt_resolve_symbolic wf resolved (same.within_iff.mp within) before
        rw [after] at there
        cases there
  case rewritten =>
    intro site uri within there
    obtain ⟨target, aims, after⟩ := linkAt_resolve_symbolic wf resolved within there
    refine ⟨target, after, fun isSuper => ?_⟩
    unfold isClass
    rw [same.kind?]
    exact aims.2 isSuper

theorem resolve_complete_shadowing :
    ∃ m' count, shadowing.Loaded ∧ shadowing.resolve ⟨0⟩ [] = .ok (m', count) ∧
      (∀ site uri, m'.Within ⟨0⟩ site.element → m'.linkAt site ≠ some (.symbolic uri)) ∧
      m'.size = 5 := by
  obtain ⟨m', count, resolved, -⟩ := resolve_shadowing
  have complete := resolve_complete loaded_shadowing resolved
  have size : shadowing.size = 5 := by decide +kernel
  exact ⟨m', count, loaded_shadowing, resolved, complete.1, complete.2.2.2.2.2.2.1.trans size⟩

end Model

end Metamodel
