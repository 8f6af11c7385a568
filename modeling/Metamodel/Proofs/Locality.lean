import Metamodel.Proofs.Idempotence

/-!
What a pass of resolution depends on.

Of the whole model a pass reads names, prefixes, kinds and containment, and no pass changes any of
them. Links it only reads and changes in its own tree, and the trees of different roots have no
element in common. So a pass does the same in two models that agree in its tree and, up to links,
everywhere else.

Results:
1. `UpToLinks.aims`: what a link text means does not depend on links.
2. `WellFormed.root_unique`: an element is in the tree of one root at most.
3. `resolve_local`: the outcome of a pass, and what it makes of its tree.
-/

namespace Metamodel

namespace Body

theorem outline_unlinked (b : Body) : b.unlinked.outline = b.outline := by
  cases b <;> rfl

theorem package?_unlinked (b : Body) :
    b.unlinked.package? =
      b.package?.map fun p => { p with factoryInstance := none, resolved := false } := by
  cases b <;> rfl

/-- A body with these links and this mark. -/
def relinked (links : LinkField → List Link) (isMarked : Bool) (b : Body) : Body :=
  LinkField.all.foldl (fun b field => b.setLinks field (links field))
    (b.mapPackage fun p => { p with resolved := isMarked })

theorem relinked_unlinked (b : Body) :
    b.unlinked.relinked (fun field => b.links field) b.isMarked = b := by
  cases b <;> simp only [relinked, unlinked, LinkField.all, List.foldl_cons, List.foldl_nil,
    setLinks, mapPackage, mapClass, mapTyped, mapReference, mapOperation, mapGenericType, mapNote,
    links, typed?, Option.bind_some, Option.head?_toList, isMarked, package?, Option.any_some]

/-- A body is known from its links, its mark and the rest. -/
theorem eq_of_unlinked {b b' : Body} (unlinked : b'.unlinked = b.unlinked)
    (links : ∀ field, b'.links field = b.links field) (isMarked : b'.isMarked = b.isMarked) :
    b' = b := by
  rw [← b'.relinked_unlinked, unlinked, isMarked, funext links, b.relinked_unlinked]

end Body

namespace Model

variable {m m' n : Model} {root : ElementId} {peers : List ElementId} {count : ResolutionCount}

/-- An element is known from its links, its mark and the rest. -/
theorem get?_eq_of_unlinked {id : ElementId}
    (unlinked : (m'.get? id).map Element.unlinked = (m.get? id).map Element.unlinked)
    (links : ∀ field, m'.links field id = m.links field id)
    (isResolved : m'.isResolved id = m.isResolved id) : m'.get? id = m.get? id := by
  cases found : m.get? id with
  | none =>
    rw [found] at unlinked
    simpa using unlinked
  | some e =>
    rw [found] at unlinked
    obtain ⟨e', found', same⟩ := Option.map_eq_some_iff.mp unlinked
    have body : e'.body = e.body := by
      refine Body.eq_of_unlinked (congrArg Element.body same) (fun field => ?_) ?_
      · have key := links field
        rwa [links_of_get? found, links_of_get? found'] at key
      · simpa [isResolved_eq, body?, found, found'] using isResolved
    rw [found']
    obtain ⟨id, name, parent, annotations, body⟩ := e
    obtain ⟨id', name', parent', annotations', body'⟩ := e'
    simp_all [Element.unlinked]

/-! ## Models that differ in links -/

/-- The models differ in links and marks at most. -/
structure UpToLinks (m m' : Model) : Prop where
  size : m'.size = m.size
  unlinked : ∀ id, (m'.get? id).map Element.unlinked = (m.get? id).map Element.unlinked

theorem upToLinks_resolve (wf : m.WellFormed) (resolved : m.resolve root peers = .ok (m', count)) :
    UpToLinks m m' :=
  ⟨size_resolve resolved, unlinked_resolve wf resolved⟩

namespace UpToLinks

theorem refl (m : Model) : UpToLinks m m := ⟨rfl, fun _ => rfl⟩

theorem trans (upTo : UpToLinks m m') (upTo' : UpToLinks m' n) : UpToLinks m n :=
  ⟨upTo'.size.trans upTo.size, fun id => (upTo'.unlinked id).trans (upTo.unlinked id)⟩

variable (upTo : UpToLinks m m')

include upTo

theorem symm : UpToLinks m' m := ⟨upTo.size.symm, fun id => (upTo.unlinked id).symm⟩

/-- Whatever does not depend on links and marks is the same in both models. -/
theorem map_get? {α : Type} {f : Element → α} (unlinked : ∀ e : Element, f e.unlinked = f e)
    (id : ElementId) : (m'.get? id).map f = (m.get? id).map f := by
  have key := congrArg (Option.map f) (upTo.unlinked id)
  simpa [Option.map_map, Function.comp_def, unlinked] using key

theorem sameOutline : SameOutline m m' :=
  upTo.map_get? fun e => by simp [Element.outline, Element.unlinked, Body.outline_unlinked]

theorem isPackage (id : ElementId) : m'.isPackage id = m.isPackage id := by
  unfold Model.isPackage
  rw [upTo.sameOutline.kind?]

theorem isClass (id : ElementId) : m'.isClass id = m.isClass id := by
  unfold Model.isClass
  rw [upTo.sameOutline.kind?]

theorem hasNsPrefix (nsPrefix : String) (id : ElementId) :
    m'.hasNsPrefix nsPrefix id = m.hasNsPrefix nsPrefix id := by
  have key := upTo.map_get? (f := fun e => e.body.package?.bind (·.nsPrefix))
    (fun e => by
      rw [Element.unlinked, Body.package?_unlinked]
      cases e.body.package? <;> rfl) id
  unfold Model.hasNsPrefix package? body?
  cases hm : m.get? id <;> cases hm' : m'.get? id <;> simp_all

theorem ownerChain (id : ElementId) : m'.ownerChain id = m.ownerChain id := by
  have within (depth : Nat) (id : ElementId) :
      m'.ownerChainWithin depth id = m.ownerChainWithin depth id := by
    induction depth generalizing id with
    | zero => rfl
    | succ depth ih =>
      simp only [ownerChainWithin, upTo.sameOutline.parent?]
      cases m.parent? id with
      | none => rfl
      | some p => exact congrArg (id :: ·) (ih p)
  rw [Model.ownerChain, upTo.size, within, Model.ownerChain]

theorem containingPackage? (id : ElementId) :
    m'.containingPackage? id = m.containingPackage? id := by
  rw [Model.containingPackage?, upTo.ownerChain, funext upTo.isPackage, Model.containingPackage?]

theorem scope (root id : ElementId) : m'.scope root id = m.scope root id := by
  rw [Model.scope, upTo.ownerChain, funext upTo.isPackage, Model.scope]

theorem nameable (id : ElementId) : m'.nameable id = m.nameable id := by
  simp only [Model.nameable, namedMembers, upTo.isPackage, upTo.sameOutline.kind?,
    upTo.sameOutline.members]

theorem leads {id target : ElementId} {path : List String} (leads : m.Leads id path target) :
    m'.Leads id path target := by
  induction leads with
  | here => exact .here
  | step found _ ih =>
    refine .step ?_ ih
    rw [upTo.nameable, ← found]
    simp only [upTo.sameOutline.label]

theorem preorder {packages order : List ElementId} (preorder : m.Preorder packages order) :
    m'.Preorder packages order := by
  induction preorder with
  | nil => exact .nil
  | cons _ _ nested after =>
    refine .cons ?_ after
    rwa [upTo.sameOutline.members]

theorem prefixed {holder package : ElementId} {nsPrefix : String}
    (prefixed : m.Prefixed root peers holder nsPrefix package) :
    m'.Prefixed root peers holder nsPrefix package := by
  have same := funext (upTo.hasNsPrefix nsPrefix)
  cases prefixed with
  | enclosing found => exact .enclosing (by rwa [upTo.scope, same])
  | peer none order found =>
    exact .peer (by rwa [upTo.scope, same]) (upTo.preorder order) (by rwa [same])

theorem names {holder target : ElementId} {uri : String}
    (names : m.Names root peers holder uri target) : m'.Names root peers holder uri target := by
  cases names with
  | fragment read nearest leads =>
    exact .fragment read (by rwa [upTo.containingPackage?]) (upTo.leads leads)
  | qualified read known leads conforms =>
    exact .qualified read (upTo.prefixed known) (upTo.leads leads)
      (by rwa [upTo.sameOutline.kind?])

theorem aims {site : LinkSite} {uri : String} {target : ElementId}
    (aims : m.Aims root peers site uri target) : m'.Aims root peers site uri target :=
  ⟨upTo.names aims.1, by rw [upTo.isClass]; exact aims.2⟩

end UpToLinks

/-! ## The trees of roots -/

theorem OnChain.eq_of_top {id x : ElementId} (top : m.parent? id = none) (chain : m.OnChain id x) :
    x = id := by
  rcases chain.cases_head with same | ⟨p, container, -⟩
  · exact same
  · rw [top] at container
    cases container

theorem WellFormed.root_unique (wf : m.WellFormed) {other id : ElementId}
    (top : m.parent? root = none) (top' : m.parent? other = none) (within : m.Within root id)
    (within' : m.Within other id) : root = other := by
  rcases (wf.onChain within).total (wf.onChain within') with chain | chain
  · exact (chain.eq_of_top top).symm
  · exact chain.eq_of_top top'

/-! ## One pass in two models -/

section Local

variable (wf : m.WellFormed) (upTo : UpToLinks m n)
  (agree : ∀ id, m.Within root id → n.get? id = m.get? id)

theorem links_congr {id : ElementId} (same : n.get? id = m.get? id) (field : LinkField) :
    n.links field id = m.links field id := by
  rw [links, body?, same, links, body?]

theorem linkAt_congr {site : LinkSite} (same : n.get? site.element = m.get? site.element) :
    n.linkAt site = m.linkAt site := by
  rw [linkAt, links_congr same, linkAt]

include wf upTo agree

/-- A pass succeeds in a model that has the same tree. -/
theorem resolve_ok_local (resolved : m.resolve root peers = .ok (m', count)) :
    ∃ n' count', n.resolve root peers = .ok (n', count') := by
  have wf' := upTo.sameOutline.wellFormed wf
  obtain ⟨isRoot, settled, -, -⟩ := wf.resolve_ok_iff_settled.mp resolved
  have isRoot' : n.isPackage root := by rw [upTo.isPackage, isRoot]
  refine ⟨_, _, wf'.resolve_ok_iff_settled.mpr ⟨isRoot', ?_, rfl, rfl⟩⟩
  refine (wf'.settled_iff isRoot').mpr fun site uri within there => ?_
  have within := upTo.sameOutline.within_iff.mp within
  rw [linkAt_congr (agree _ within)] at there
  obtain ⟨target, aims⟩ := (wf.settled_iff isRoot).mp settled site uri within there
  exact ⟨target, upTo.aims aims⟩

variable {n' : Model} {count' : ResolutionCount} (resolved : m.resolve root peers = .ok (m', count))
  (resolved' : n.resolve root peers = .ok (n', count'))

include resolved resolved'

theorem count_local : count' = count := by
  have wf' := upTo.sameOutline.wellFormed wf
  obtain ⟨isRoot, -, -, -⟩ := wf.resolve_ok_iff_settled.mp resolved
  obtain ⟨e, found⟩ := get?_of_isPackage isRoot
  have links : (n.tree root).flatMap n.allLinks = (m.tree root).flatMap m.allLinks := by
    rw [upTo.sameOutline.tree upTo.size]
    refine List.flatMap_congr fun id there => List.flatMap_congr fun field _ => ?_
    exact links_congr (agree id ((wf.mem_tree found).mp there)) field
  rw [count_resolve wf resolved, count_resolve wf' resolved', links]

theorem linkAt_local {site : LinkSite} (within : m.Within root site.element) :
    n'.linkAt site = m'.linkAt site := by
  have wf' := upTo.sameOutline.wellFormed wf
  obtain ⟨isRoot, -, -, -⟩ := wf.resolve_ok_iff_settled.mp resolved
  have same := linkAt_congr (agree _ within)
  -- A symbolic link means the same element in both models, and no other link changes.
  by_cases before : ∃ uri, m.linkAt site = some (.symbolic uri)
  · obtain ⟨uri, before⟩ := before
    obtain ⟨target, aims, after⟩ := linkAt_resolve_symbolic wf resolved within before
    obtain ⟨target', aims', after'⟩ := linkAt_resolve_symbolic wf' resolved'
      (upTo.sameOutline.within_iff.mpr within) (same.trans before)
    rw [after, after', wf.names_unique isRoot within aims.1 (upTo.symm.aims aims').1]
  · rw [linkAt_resolve_other wf resolved fun uri _ here => before ⟨uri, here⟩,
      linkAt_resolve_other wf' resolved' fun uri _ here => before ⟨uri, same.symm.trans here⟩, same]

theorem get?_local {id : ElementId} (within : m.Within root id) : n'.get? id = m'.get? id := by
  have wf' := upTo.sameOutline.wellFormed wf
  have within' := upTo.sameOutline.within_iff.mpr within
  refine get?_eq_of_unlinked ?_ (fun field => List.ext_getElem? fun index => ?_) ?_
  · rw [unlinked_resolve wf' resolved', agree id within, unlinked_resolve wf resolved]
  · have here : m.Within root (⟨id, field, index⟩ : LinkSite).element := within
    exact linkAt_local wf upTo agree resolved resolved' here
  · -- Both passes mark the packages of the tree, and nothing else bears a mark.
    have upToM := upToLinks_resolve wf resolved
    have upToN := upToLinks_resolve wf' resolved'
    cases isPackage : m.isPackage id with
    | true =>
      rw [isResolved_resolve wf resolved within isPackage,
        isResolved_resolve wf' resolved' within' ((upTo.isPackage id).trans isPackage)]
    | false =>
      have plain : m'.package? id = none := package?_eq_none ((upToM.isPackage id).trans isPackage)
      have plain' : n'.package? id = none :=
        package?_eq_none (((upToN.isPackage id).trans (upTo.isPackage id)).trans isPackage)
      unfold Model.isResolved
      rw [plain, plain']

end Local

/-- A pass over the same tree has the same outcome in another model and does the same to the
tree. -/
theorem resolve_local (wf : m.WellFormed) (upTo : UpToLinks m n)
    (agree : ∀ id, m.Within root id → n.get? id = m.get? id)
    (resolved : m.resolve root peers = .ok (m', count)) :
    ∃ n', n.resolve root peers = .ok (n', count) ∧
      ∀ id, m.Within root id → n'.get? id = m'.get? id := by
  obtain ⟨n', count', resolved'⟩ := resolve_ok_local wf upTo agree resolved
  obtain rfl := count_local wf upTo agree resolved resolved'
  exact ⟨n', resolved', fun id within => get?_local wf upTo agree resolved resolved' within⟩

end Model

end Metamodel
