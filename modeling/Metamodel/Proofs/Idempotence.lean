import Metamodel.Proofs.Resolution

/-!
Resolving once more.

A pass leaves its tree clean: all links are resolved and all packages marked. On a clean tree a
pass changes nothing, whatever its peers are, and counts the links. The first pass may change the
order of classes, so that the second one meets the links in another order; how many there are only
depends on the elements of the tree.

Results:
1. `WellFormed.resolve_of_clean`: a pass over a clean tree.
2. `resolve_again`: a pass that succeeded succeeds again and changes nothing.
-/

namespace Metamodel

theorem Body.marked_eq_self {b : Body} (marked : b.isMarked) : b.marked = b := by
  cases b <;> simp_all [Body.marked, Body.mapPackage, Body.isMarked, Body.package?]
  next p => cases p; simp_all

namespace Model

variable {m m' : Model} {root : ElementId} {peers : List ElementId} {count : ResolutionCount}

/-! ## Clean trees -/

theorem markResolved_eq_self {package : ElementId} (marked : m.isResolved package) :
    m.markResolved package = m := by
  refine eq_of_get? fun id => ?_
  change (m.modifyBody package Body.marked).get? id = m.get? id
  rw [get?_modifyBody]
  split
  · next same =>
    subst same
    cases found : m.get? id with
    | none => rfl
    | some e =>
      have isMarked : e.body.isMarked := by simpa [isResolved_eq, body?, found] using marked
      rw [Option.map_some, Body.marked_eq_self isMarked]
  · rfl

theorem foldl_markResolved_eq_self {packages : List ElementId}
    (marked : ∀ p ∈ packages, m.isResolved p) : packages.foldl markResolved m = m := by
  induction packages with
  | nil => rfl
  | cons p rest ih =>
    rw [List.foldl_cons, markResolved_eq_self (marked p List.mem_cons_self)]
    exact ih fun q later => marked q (List.mem_cons_of_mem p later)

/-- Below the package all links are resolved and all packages are marked. -/
structure Clean (m : Model) (root : ElementId) : Prop where
  isPackage : m.isPackage root
  links : ∀ site uri, m.Within root site.element → m.linkAt site ≠ some (.symbolic uri)
  marks : ∀ id, m.Within root id → m.isPackage id → m.isResolved id

/-- How many links the elements of a tree have. -/
def linkCount (m : Model) (root : ElementId) : Nat := ((m.tree root).flatMap m.allLinks).length

theorem WellFormed.length_linkSites (wf : m.WellFormed) (isRoot : m.isPackage root) :
    (m.linkSites root).length = m.linkCount root := by
  obtain ⟨e, found⟩ := get?_of_isPackage isRoot
  rw [linkCount, ← (wf.links_perm found).length_eq, List.length_map]

theorem SameOutline.tree (same : SameOutline m m') (size : m'.size = m.size) (id : ElementId) :
    m'.tree id = m.tree id := by
  have members (id : ElementId) : m'.allMembers id = m.allMembers id :=
    List.flatMap_congr fun slot _ => same.members slot id
  have within (depth : Nat) (id : ElementId) : m'.treeWithin depth id = m.treeWithin depth id := by
    induction depth generalizing id with
    | zero => rfl
    | succ depth ih =>
      simp only [treeWithin, members]
      rw [List.flatMap_congr fun c _ => ih c]
  rw [Model.tree, size, within, Model.tree]

theorem WellFormed.resolve_of_clean (wf : m.WellFormed) (clean : m.Clean root)
    (peers : List ElementId) : m.resolve root peers = .ok (m, ⟨0, m.linkCount root⟩) := by
  obtain ⟨e, found⟩ := get?_of_isPackage clean.isPackage
  have resolved : ∀ entry ∈ m.linkSites root, entry.2.isResolved := by
    rintro ⟨site, link⟩ met
    obtain ⟨within, there⟩ := (wf.mem_linkSites found).mp met
    cases link with
    | resolved target => rfl
    | symbolic uri => exact absurd there (clean.links site uri within)
  have noPatch : (m.linkSites root).filterMap (Patch.of? (m.aim? root peers)) = [] := by
    refine List.eq_nil_iff_forall_not_mem.mpr fun p made => ?_
    obtain ⟨uri, met, -⟩ := mem_filterMap_of?.mp made
    exact absurd (resolved _ met) Bool.false_ne_true
  -- Nothing is left to be settled or patched, and the marks are there.
  refine wf.resolve_ok_iff_settled.mpr ⟨clean.isPackage, ?_, ?_, ?_⟩
  · exact fun site uri met => absurd (resolved _ met) Bool.false_ne_true
  · rw [noPatch, List.foldl_nil, foldl_markResolved_eq_self]
    intro p there
    obtain ⟨within, isPackage⟩ := (wf.mem_packageTree clean.isPackage).mp there
    exact clean.marks p within isPackage
  · rw [List.countP_eq_length.mpr resolved, wf.length_linkSites clean.isPackage,
      List.countP_eq_zero.mpr fun entry met => by simp [resolved entry met]]

/-! ## What a pass leaves -/

section Outcome

variable (wf : m.WellFormed) (resolved : m.resolve root peers = .ok (m', count))

include wf resolved

theorem clean_resolve : m'.Clean root := by
  have same := sameOutline_resolve resolved
  obtain ⟨isRoot, -, -, -⟩ := wf.resolve_ok_iff_settled.mp resolved
  have isPackage (id : ElementId) : m'.isPackage id = m.isPackage id := by
    unfold Model.isPackage
    rw [same.kind?]
  refine ⟨by rw [isPackage, isRoot], fun site uri within there => ?_, fun id within known => ?_⟩
  · by_cases before : ∃ uri, m.linkAt site = some (.symbolic uri)
    · obtain ⟨uri, before⟩ := before
      obtain ⟨target, -, after⟩ :=
        linkAt_resolve_symbolic wf resolved (same.within_iff.mp within) before
      exact nomatch after.symm.trans there
    · have kept := linkAt_resolve_other wf resolved fun uri _ here => before ⟨uri, here⟩
      exact before ⟨uri, kept.symm.trans there⟩
  · exact isResolved_resolve wf resolved (same.within_iff.mp within) (isPackage id ▸ known)

theorem length_links_resolve (field : LinkField) (id : ElementId) :
    (m'.links field id).length = (m.links field id).length := by
  obtain ⟨-, -, rfl, -⟩ := wf.resolve_ok_iff_settled.mp resolved
  rw [links_foldl_markResolved]
  refine foldl_unchanged (fun m => (m.links field id).length) fun m p _ => ?_
  rw [links_applyPatch]
  split <;> simp

/-- A pass changes what links are, not how many there are. -/
theorem linkCount_resolve (package : ElementId) : m'.linkCount package = m.linkCount package := by
  have tree := (sameOutline_resolve resolved).tree (size_resolve resolved) package
  have lengths (id : ElementId) : (m'.allLinks id).length = (m.allLinks id).length := by
    simp [allLinks, List.length_flatMap, length_links_resolve wf resolved]
  simp [linkCount, tree, List.length_flatMap, lengths]

/-- Every link of the tree is counted, either way. -/
theorem total_resolve : count.resolved + count.alreadyResolved = m.linkCount root := by
  obtain ⟨isRoot, -, -, rfl⟩ := wf.resolve_ok_iff_settled.mp resolved
  rw [← wf.length_linkSites isRoot,
    List.length_eq_countP_add_countP (fun entry : LinkSite × Link => !entry.2.isResolved)]
  simp

end Outcome

/-- A pass that succeeded succeeds once more: it finds every link resolved that the first one met,
and leaves the model as it is, whatever the peers are now. -/
theorem resolve_again (loaded : m.Loaded) (resolved : m.resolve root peers = .ok (m', count)) :
    ∀ peers', m'.resolve root peers' =
      .ok (m', ⟨0, count.resolved + count.alreadyResolved⟩) := by
  intro peers'
  have wf := loaded.wellFormed
  rw [total_resolve wf resolved, ← linkCount_resolve wf resolved root]
  exact (Loaded.resolved loaded resolved).wellFormed.resolve_of_clean (clean_resolve wf resolved)
    peers'

/-- A document with a class whose features have the types of the same package. -/
def typedDocument : List Event :=
  [.opening "EPackage" (.ofList [("name", "zoo")]),
    .opening "eClasses" (.ofList [("name", "Keeper")]),
    .opening "eAttributes" (.ofList [("name", "diet"), ("eType", "#//Food")]), .closing,
    .opening "eReferences" (.ofList [("name", "helper"), ("eType", "#//Keeper")]), .closing,
    .closing,
    .opening "eDataTypes" (.ofList [("name", "Food")]), .closing,
    .closing]

/-- The model with the elements of `typedDocument`. -/
def typedModel : Model :=
  (({} : Model).build "xsi:type" typedDocument none).toOption.elim {} Prod.fst

/-- The first pass resolves two links, the second one finds both of them resolved. -/
theorem resolve_again_typed :
    ∃ m', typedModel.Loaded ∧ typedModel.resolve ⟨0⟩ [] = .ok (m', ⟨2, 0⟩) ∧
      m'.resolve ⟨0⟩ [] = .ok (m', ⟨0, 2⟩) := by
  have built : ({} : Model).build "xsi:type" typedDocument none = .ok (typedModel, ⟨0⟩) := rfl
  have loaded : typedModel.Loaded := .document .empty built
  have reads : (typedModel.resolve ⟨0⟩ []).toOption.map Prod.snd = some ⟨2, 0⟩ := by
    decide +kernel
  obtain ⟨⟨m', count⟩, done, rfl⟩ := Option.map_eq_some_iff.mp reads
  have resolved := toOption_eq_some_iff.mp done
  exact ⟨m', loaded, resolved, resolve_again loaded resolved []⟩

end Model

end Metamodel
