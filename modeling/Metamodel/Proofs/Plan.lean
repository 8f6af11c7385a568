import Metamodel.Proofs.Naming
import Metamodel.Proofs.Sites

/-!
Planning a pass of resolution.

Every step of a pass adds to the plan what the links that it meets become, or fails because one of
them has no target. What a link becomes depends on its place alone: the packages that are open when
it is met are those in scope of the element that holds it.

Results:
1. `WellFormed.aim?_iff`: the target of a symbolic link is what the rule of names says.
2. `plans_planField`: the links of one field.
3. `foldlM_take_ok_iff`: any part of a traversal.
4. `WellFormed.planResolution_ok_iff`: when a pass can be planned, and what the plan is.
-/

namespace Metamodel

theorem toOption_eq_some_iff {ε α : Type} {x : Except ε α} {a : α} :
    x.toOption = some a ↔ x = .ok a := by
  cases x <;> simp [Except.toOption]

/-- The patch for a link, if it is symbolic and `aim` gives it a target. -/
def Patch.of? (aim : LinkSite → String → Option ElementId) : LinkSite × Link → Option Patch
  | (site, .symbolic uri) => (aim site uri).map (⟨site.element, site.field, site.index, ·⟩)
  | (_, .resolved _) => none

@[simp]
theorem Patch.of?_symbolic (aim : LinkSite → String → Option ElementId) (site : LinkSite)
    (uri : String) : Patch.of? aim (site, .symbolic uri) =
      (aim site uri).map (⟨site.element, site.field, site.index, ·⟩) := rfl

@[simp]
theorem Patch.of?_resolved (aim : LinkSite → String → Option ElementId) (site : LinkSite)
    (target : ElementId) : Patch.of? aim (site, .resolved target) = none := rfl

/-- The pass after links have been met. -/
def ResolutionPass.plan (aim : LinkSite → String → Option ElementId)
    (sites : List (LinkSite × Link)) (pass : ResolutionPass) : ResolutionPass :=
  { pass with
    patches := pass.patches ++ sites.filterMap (Patch.of? aim)
    alreadyResolved := pass.alreadyResolved + sites.countP (·.2.isResolved) }

/-- Every symbolic link has a target. -/
def Settled (aim : LinkSite → String → Option ElementId) (sites : List (LinkSite × Link)) : Prop :=
  ∀ site uri, (site, .symbolic uri) ∈ sites → ∃ target, aim site uri = some target

/-- While these packages are open, a step of a pass meets these links: it succeeds exactly if all of
them are settled, and then plans them. -/
def Plans (aim : LinkSite → String → Option ElementId) (opened : List ElementId)
    (step : ResolutionPass → Except Error ResolutionPass) (sites : List (LinkSite × Link)) : Prop :=
  ∀ pass pass', pass.opened = opened →
    (step pass = .ok pass' ↔ Settled aim sites ∧ pass' = pass.plan aim sites)

section Plans

variable {aim : LinkSite → String → Option ElementId} {opened : List ElementId}
  {sites sites' : List (LinkSite × Link)}

theorem settled_nil : Settled aim [] := fun _ _ there => nomatch there

theorem settled_append :
    Settled aim (sites ++ sites') ↔ Settled aim sites ∧ Settled aim sites' := by
  simp only [Settled, List.mem_append]
  constructor
  · exact fun all => ⟨fun site uri there => all site uri (.inl there),
      fun site uri there => all site uri (.inr there)⟩
  · rintro ⟨first, second⟩ site uri (there | there)
    · exact first site uri there
    · exact second site uri there

theorem mem_filterMap_of? {p : Patch} : p ∈ sites.filterMap (Patch.of? aim) ↔
    ∃ uri, (p.site, .symbolic uri) ∈ sites ∧ aim p.site uri = some p.target := by
  rw [List.mem_filterMap]
  constructor
  · rintro ⟨⟨site, link⟩, there, made⟩
    cases link with
    | resolved target => cases made
    | symbolic uri =>
      obtain ⟨target, known, rfl⟩ := Option.map_eq_some_iff.mp made
      exact ⟨uri, there, known⟩
  · rintro ⟨uri, there, known⟩
    exact ⟨(p.site, .symbolic uri), there, by rw [Patch.of?_symbolic, known]; rfl⟩

/-- Of the targets, only those that are kept count. -/
theorem settled_filter {keep : LinkSite → ElementId → Bool} :
    Settled (fun site uri => (aim site uri).filter (keep site)) sites ↔
      Settled aim sites ∧ ∀ p ∈ sites.filterMap (Patch.of? aim), keep p.site p.target := by
  simp only [Settled, Option.filter_eq_some_iff]
  constructor
  · intro all
    refine ⟨fun site uri there => ?_, fun p made => ?_⟩
    · obtain ⟨target, known, -⟩ := all site uri there
      exact ⟨target, known⟩
    · obtain ⟨uri, there, known⟩ := mem_filterMap_of?.mp made
      obtain ⟨target, same, kept⟩ := all p.site uri there
      rwa [Option.some.inj (known.symm.trans same)]
  · rintro ⟨settled, kept⟩ site uri there
    obtain ⟨target, known⟩ := settled site uri there
    have made : ⟨site.element, site.field, site.index, target⟩ ∈ sites.filterMap (Patch.of? aim) :=
      mem_filterMap_of?.mpr ⟨uri, there, known⟩
    exact ⟨target, known, kept _ made⟩

namespace ResolutionPass

variable {pass : ResolutionPass}

theorem plan_filter (pass : ResolutionPass) {keep : LinkSite → ElementId → Bool}
    (settled : Settled (fun site uri => (aim site uri).filter (keep site)) sites) :
    pass.plan (fun site uri => (aim site uri).filter (keep site)) sites = pass.plan aim sites := by
  have same : sites.filterMap (Patch.of? fun site uri => (aim site uri).filter (keep site)) =
      sites.filterMap (Patch.of? aim) := by
    refine List.filterMap_congr fun ⟨site, link⟩ there => ?_
    cases link with
    | resolved target => rfl
    | symbolic uri =>
      obtain ⟨target, kept⟩ := settled site uri there
      obtain ⟨known, fits⟩ := Option.filter_eq_some_iff.mp kept
      simp [known, fits]
  simp only [plan, same]

theorem plan_nil : pass.plan aim [] = pass := by
  simp [plan]

theorem plan_append : pass.plan aim (sites ++ sites') = (pass.plan aim sites).plan aim sites' := by
  simp [plan, List.countP_append, Nat.add_assoc]

end ResolutionPass

namespace Plans

theorem nil : Plans aim opened .ok [] := by
  intro pass pass' _
  rw [ResolutionPass.plan_nil, Except.ok.injEq]
  exact ⟨fun same => ⟨settled_nil, same.symm⟩, fun done => done.2.symm⟩

theorem bind {first second : ResolutionPass → Except Error ResolutionPass}
    (plansFirst : Plans aim opened first sites) (plansSecond : Plans aim opened second sites') :
    Plans aim opened (fun pass => first pass >>= second) (sites ++ sites') := by
  intro pass pass' isOpen
  rw [bind_ok_iff, settled_append, ResolutionPass.plan_append]
  constructor
  · rintro ⟨middle, done, rest⟩
    obtain ⟨settled, rfl⟩ := (plansFirst pass middle isOpen).mp done
    obtain ⟨settled', rfl⟩ := (plansSecond (pass.plan aim sites) pass' isOpen).mp rest
    exact ⟨⟨settled, settled'⟩, rfl⟩
  · rintro ⟨⟨settled, settled'⟩, same⟩
    exact ⟨pass.plan aim sites, (plansFirst pass _ isOpen).mpr ⟨settled, rfl⟩,
      (plansSecond (pass.plan aim sites) pass' isOpen).mpr ⟨settled', same⟩⟩

theorem foldlM {α : Type} {step : ResolutionPass → α → Except Error ResolutionPass}
    {met : α → List (LinkSite × Link)} {l : List α}
    (plans : ∀ a ∈ l, Plans aim opened (step · a) (met a)) :
    Plans aim opened (l.foldlM step) (l.flatMap met) := by
  induction l with
  | nil => exact nil
  | cons a l ih =>
    have rest := ih fun b member => plans b (List.mem_cons_of_mem a member)
    simpa only [List.foldlM_cons, List.flatMap_cons] using
      (plans a List.mem_cons_self).bind rest

end Plans

end Plans

namespace Model

/-! ## Fields -/

/-- What a link text names from the packages in scope of the element that holds it. -/
def reached? (m : Model) (root : ElementId) (peers : List ElementId) (site : LinkSite)
    (uri : String) : Option ElementId :=
  (m.target (m.scope root site.element) peers site.element uri).toOption

/-- The target of a symbolic link: what its text names, if that fits the field. -/
def aim? (m : Model) (root : ElementId) (peers : List ElementId) (site : LinkSite)
    (uri : String) : Option ElementId :=
  (m.reached? root peers site uri).filter fun target => site.field ≠ .superTypes || m.isClass target

variable {m : Model} {root : ElementId} {peers : List ElementId}

theorem WellFormed.aim?_iff (wf : m.WellFormed) (isRoot : m.isPackage root) {site : LinkSite}
    (within : m.Within root site.element) {uri : String} {target : ElementId} :
    m.aim? root peers site uri = some target ↔
      m.Names root peers site.element uri target ∧
        (site.field = .superTypes → m.isClass target) := by
  rw [aim?, Option.filter_eq_some_iff, reached?, toOption_eq_some_iff,
    wf.target_ok_iff isRoot within]
  by_cases isSuper : site.field = .superTypes <;> simp [isSuper]

theorem plans_planLink (root : ElementId) (peers : List ElementId) (element : ElementId)
    (field : LinkField) (index : Nat) (link : Link) :
    Plans (m.reached? root peers) (m.scope root element)
      (m.planLink peers element field · (link, index)) [(⟨element, field, index⟩, link)] := by
  intro pass pass' isOpen
  cases link with
  | resolved target =>
    simp [planLink, Settled, ResolutionPass.plan, List.filterMap_cons, Link.isResolved, eq_comm]
  | symbolic uri =>
    cases found : m.target (m.scope root element) peers element uri with
    | error error =>
      have unsettled :
          ¬ Settled (m.reached? root peers) [(⟨element, field, index⟩, .symbolic uri)] := by
        intro settled
        obtain ⟨target, known⟩ := settled ⟨element, field, index⟩ uri (List.mem_singleton_self _)
        simp [reached?, found, Except.toOption] at known
      simp [planLink, isOpen, found, bind, Except.bind, unsettled]
    | ok target =>
      have known : m.reached? root peers ⟨element, field, index⟩ uri = some target := by
        simp [reached?, found, Except.toOption]
      have settled :
          Settled (m.reached? root peers) [(⟨element, field, index⟩, .symbolic uri)] := by
        intro site uri' there
        cases List.mem_singleton.mp there
        exact ⟨target, known⟩
      simp [planLink, isOpen, found, bind, Except.bind, pure, Except.pure, settled, known,
        ResolutionPass.plan, Link.isResolved, eq_comm]

theorem plans_links (root : ElementId) (peers : List ElementId) (element : ElementId)
    (field : LinkField) :
    Plans (m.reached? root peers) (m.scope root element)
      ((m.links field element).zipIdx.foldlM (m.planLink peers element field))
      (m.fieldSites element field) := by
  rw [fieldSites, List.map_eq_flatMap]
  exact Plans.foldlM fun entry _ => plans_planLink root peers element field entry.2 entry.1

/-- The links of a field are planned one by one; then the targets of supertypes are looked at. -/
theorem planField_ok_iff {element : ElementId} {field : LinkField} {pass pass' : ResolutionPass} :
    m.planField peers element pass field = .ok pass' ↔
      (m.links field element).zipIdx.foldlM (m.planLink peers element field) pass = .ok pass' ∧
        (field = .superTypes →
          ∀ p ∈ pass'.patches.drop pass.patches.length, m.isClass p.target) := by
  unfold planField
  rw [bind_ok_iff]
  by_cases isSuper : field = .superTypes
  · constructor
    · rintro ⟨planned, done, checked⟩
      rw [if_pos isSuper] at checked
      split at checked
      · cases checked
      · next none =>
        cases checked
        exact ⟨done, fun _ p new => by simpa using List.find?_eq_none.mp none p new⟩
    · rintro ⟨done, classes⟩
      refine ⟨pass', done, ?_⟩
      have none : (pass'.patches.drop pass.patches.length).find? (fun p => !m.isClass p.target) =
          none := List.find?_eq_none.mpr fun p new => by simp [classes isSuper p new]
      rw [if_pos isSuper, none]
      rfl
  · simp [isSuper, pure, Except.pure]

/-- The links of a field all become what the rule says. -/
theorem plans_planField (root : ElementId) (peers : List ElementId) (element : ElementId)
    (field : LinkField) :
    Plans (m.aim? root peers) (m.scope root element) (m.planField peers element · field)
      (m.fieldSites element field) := by
  intro pass pass' isOpen
  have planned := plans_links root peers element field pass pass' isOpen
  have ofField {p : Patch} (made : p ∈ (m.fieldSites element field).filterMap
      (Patch.of? (m.reached? root peers))) : p.site.field = field := by
    obtain ⟨uri, there, -⟩ := mem_filterMap_of?.mp made
    exact (mem_fieldSites.mp there).2.1
  -- A target that is no class leaves a supertype unsettled, and the field is refused as a whole.
  have settled : Settled (m.aim? root peers) (m.fieldSites element field) ↔
      Settled (m.reached? root peers) (m.fieldSites element field) ∧ (field = .superTypes →
        ∀ p ∈ (m.fieldSites element field).filterMap (Patch.of? (m.reached? root peers)),
          m.isClass p.target) := by
    refine settled_filter.trans (and_congr_right fun _ => ⟨fun fits isSuper p made => ?_, ?_⟩)
    · simpa [ofField made, isSuper] using fits p made
    · intro classes p made
      by_cases isSuper : field = .superTypes
      · simp [classes isSuper p made]
      · simp [ofField made, isSuper]
  change m.planField peers element pass field = .ok pass' ↔ _
  rw [planField_ok_iff, planned, settled, and_assoc, and_assoc]
  refine and_congr_right fun reached => ?_
  constructor
  · rintro ⟨rfl, classes⟩
    have new : (pass.plan (m.reached? root peers) (m.fieldSites element field)).patches.drop
        pass.patches.length =
          (m.fieldSites element field).filterMap (Patch.of? (m.reached? root peers)) :=
      List.drop_left
    rw [new] at classes
    exact ⟨classes, (ResolutionPass.plan_filter pass (settled.mpr ⟨reached, classes⟩)).symm⟩
  · rintro ⟨classes, rfl⟩
    have same := ResolutionPass.plan_filter pass (settled.mpr ⟨reached, classes⟩)
    refine ⟨same, fun isSuper p new => classes isSuper p ?_⟩
    have kept := same ▸ new
    rwa [ResolutionPass.plan, List.drop_left] at kept

/-! ## Visits -/

theorem steady_resolutionVisitor (peers : List ElementId) : (m.resolutionVisitor peers).Steady where
  descends := rfl
  goesOn entered := by
    simp only [resolutionVisitor, Except.ok.injEq, Prod.mk.injEq] at entered
    exact entered.2.symm

/-- One visit plans the links that are met there and opens or closes a package. -/
theorem take_ok_iff {v : Visit} {pass pass' : ResolutionPass}
    (isOpen : v.inside pass.opened = m.scope root v.element) :
    (m.resolutionVisitor peers).take pass v = .ok pass' ↔
      Settled (m.aim? root peers) (m.visitSites v) ∧
        pass' = { pass.plan (m.aim? root peers) (m.visitSites v) with
          opened := v.opens pass.opened } := by
  cases v with
  | entering c id =>
    simp only [Visitor.take, resolutionVisitor, visitSites, Visit.opens, ResolutionPass.plan_nil,
      settled_nil, true_and, Except.map, Except.ok.injEq]
    by_cases isPackage : c = .ePackage
    · simp [isPackage, eq_comm]
    · simp only [isPackage, if_false]
      exact eq_comm
  | leaving c id =>
    have planned (middle : ResolutionPass) :=
      Plans.foldlM (l := LinkField.ofMetaclass c)
        (fun field _ => plans_planField root peers id field) pass middle isOpen
    have take : (m.resolutionVisitor peers).take pass (.leaving c id) = .ok pass' ↔
        ∃ middle, (LinkField.ofMetaclass c).foldlM (m.planField peers id) pass = .ok middle ∧
          pass' = { middle with opened := (Visit.leaving c id).opens middle.opened } := by
      simp only [Visitor.take, resolutionVisitor, Visit.opens]
      cases (LinkField.ofMetaclass c).foldlM (m.planField peers id) pass with
      | error error => simp
      | ok middle => by_cases isPackage : c = .ePackage <;> simp [isPackage, eq_comm]
    rw [take]
    constructor
    · rintro ⟨middle, done, rfl⟩
      obtain ⟨settled, rfl⟩ := (planned middle).mp done
      exact ⟨settled, rfl⟩
    · rintro ⟨settled, rfl⟩
      exact ⟨_, (planned _).mpr ⟨settled, rfl⟩, rfl⟩

/-- A part of a traversal, with the right packages open, plans the links that are met in it. -/
theorem foldlM_take_ok_iff (peers : List ElementId) {visits : List Visit} (pass : ResolutionPass)
    {pass' : ResolutionPass}
    (inside : Visit.withOpened pass.opened visits =
      visits.map fun v => (m.scope root v.element, v)) :
    visits.foldlM (m.resolutionVisitor peers).take pass = .ok pass' ↔
      Settled (m.aim? root peers) (visits.flatMap m.visitSites) ∧
        pass' = { pass.plan (m.aim? root peers) (visits.flatMap m.visitSites) with
          opened := visits.foldl Visit.opens pass.opened } := by
  induction visits generalizing pass with
  | nil =>
    simp [settled_nil, ResolutionPass.plan_nil, pure, Except.pure, eq_comm]
  | cons v visits ih =>
    simp only [Visit.withOpened, List.map_cons, List.cons.injEq, Prod.mk.injEq] at inside
    obtain ⟨⟨here, -⟩, later⟩ := inside
    have rest (sites : List (LinkSite × Link)) :=
      ih { pass.plan (m.aim? root peers) sites with opened := v.opens pass.opened } later
    rw [List.foldlM_cons, bind_ok_iff, List.flatMap_cons, settled_append, List.foldl_cons,
      ResolutionPass.plan_append]
    constructor
    · rintro ⟨middle, taken, done⟩
      obtain ⟨settled, rfl⟩ := (take_ok_iff here).mp taken
      obtain ⟨settled', rfl⟩ := (rest _).mp done
      exact ⟨⟨settled, settled'⟩, rfl⟩
    · rintro ⟨⟨settled, settled'⟩, rfl⟩
      exact ⟨_, (take_ok_iff here).mpr ⟨settled, rfl⟩, (rest _).mpr ⟨settled', rfl⟩⟩

namespace WellFormed

/-- A pass can be planned exactly if each symbolic link in the tree has a target. -/
theorem planResolution_ok_iff (wf : m.WellFormed) {e : Element} (found : m.get? root = some e)
    {pass : ResolutionPass} :
    m.planResolution root peers = .ok pass ↔
      Settled (m.aim? root peers) (m.linkSites root) ∧
        pass = ({} : ResolutionPass).plan (m.aim? root peers) (m.linkSites root) := by
  have keeps := wf.keepsScope_root found
  have done : (m.visits root).foldlM (m.resolutionVisitor peers).take {} = .ok pass ↔ _ :=
    foldlM_take_ok_iff peers {} keeps.inside
  rw [keeps.closed] at done
  refine Iff.trans ?_ done
  rw [planResolution, walk_eq_foldlM (steady_resolutionVisitor peers)]
  cases (m.visits root).foldlM (m.resolutionVisitor peers).take {} <;> simp

/-- Wherever a pass has come, the open packages are those in scope. -/
theorem opened_of_foldlM_take (wf : m.WellFormed) {e : Element} (found : m.get? root = some e)
    {before after : List Visit} {v : Visit} {pass : ResolutionPass}
    (split : m.visits root = before ++ v :: after)
    (taken : before.foldlM (m.resolutionVisitor peers).take {} = .ok pass) :
    v.inside pass.opened = m.scope root v.element := by
  have inside := (wf.keepsScope_root found).inside
  rw [split, Visit.withOpened_append, List.map_append] at inside
  have first := (List.append_inj inside (by rw [Visit.length_withOpened, List.length_map])).1
  obtain ⟨-, rfl⟩ := (foldlM_take_ok_iff peers {} first).mp taken
  exact wf.inside_opened found split

end WellFormed

end Model

end Metamodel
