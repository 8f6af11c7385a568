import Metamodel.Proofs.Documents
import Metamodel.Proofs.Generation
import Metamodel.Proofs.Supertypes

/-!
Generation after all roots have been resolved.

A link text names elements in the tree of the root that is resolved or of one of its peers, and the
peers are all roots of the model. So every supertype that a round of passes finds is in the tree of a
root. All these trees are linked in the end: those that documents made because they were resolved,
the standard package because nothing in it needs to be. Generation reads nothing else: the tree of
its package and the trees of the ancestors of its classes.

Results:
1. `WellFormed.within_of_names`: where the elements are that a text names.
2. `Forest.linked`: what a round of passes leaves.
3. `generate_of_documents`: generation succeeds for every root.
-/

namespace Metamodel

namespace Model

variable {m m' : Model} {root holder target : ElementId} {peers roots : List ElementId}

/-! ## Where named elements are -/

theorem Leads.within {id : ElementId} {path : List String} (leads : m.Leads id path target) :
    m.Within id target := by
  induction leads with
  | here => exact .self
  | @step id member target name path found _ ih =>
    refine .trans ?_ ih
    have named := List.mem_of_find?_eq_some found
    unfold nameable namedMembers at named
    split at named
    · simp only [List.mem_append] at named
      rcases named with (held | held) | held <;> exact .member .self held
    · split at named
      · simp only [List.mem_append] at named
        rcases named with ((held | held) | held) | held <;> exact .member .self held
      · exact .member .self named
      · rcases List.mem_append.mp named with held | held <;> exact .member .self held
      · exact .member .self named
      · cases named

namespace WellFormed

variable (wf : m.WellFormed)

include wf

theorem within_of_mem_scope (isRoot : m.isPackage root) (within : m.Within root holder)
    {package : ElementId} (inScope : package ∈ m.scope root holder) : m.Within root package := by
  induction within with
  | self =>
    obtain ⟨e, found⟩ := get?_of_isPackage isRoot
    rw [wf.scope_self found] at inScope
    rw [List.mem_singleton.mp (List.mem_of_mem_filter inScope)]
    exact .self
  | @member slot p c within held ih =>
    rw [wf.scope_member within (mem_allMembers.mpr ⟨slot, held⟩)] at inScope
    split at inScope
    · rcases List.mem_cons.mp inScope with rfl | outer
      · exact .member within held
      · exact ih outer
    · exact ih inScope

/-- What a text in the tree of a root names is in that tree or in the tree of a peer. -/
theorem within_of_names (isRoot : m.isPackage root) (arePackages : ∀ p ∈ peers, m.isPackage p)
    (within : m.Within root holder) {uri : String} (names : m.Names root peers holder uri target) :
    ∃ top ∈ root :: peers, m.Within top target := by
  have enclosed {package : ElementId} (inScope : package ∈ m.scope root holder) {path : List String}
      (leads : m.Leads package path target) : ∃ top ∈ root :: peers, m.Within top target :=
    ⟨root, List.mem_cons_self, (wf.within_of_mem_scope isRoot within inScope).trans leads.within⟩
  cases names with
  | fragment read nearest leads =>
    rw [← wf.head?_scope isRoot within] at nearest
    exact enclosed (List.mem_of_head? nearest) leads
  | qualified read known leads conforms =>
    cases known with
    | enclosing found => exact enclosed (List.mem_of_find?_eq_some found) leads
    | peer none order found =>
      obtain ⟨e, there⟩ := get?_of_isPackage isRoot
      have pos : 0 < m.size := Nat.zero_lt_of_lt (lt_size_of_get? there)
      rw [order.unique (wf.preorder_packageTree pos peers)] at found
      obtain ⟨p, member, inTree⟩ := List.mem_flatMap.mp (List.mem_of_find?_eq_some found)
      have below := ((wf.mem_packageTree (arePackages p member)).mp inTree).1
      exact ⟨p, List.mem_cons_of_mem root member, below.trans leads.within⟩

end WellFormed

/-! ## A round of passes -/

theorem mem_superTypes_iff {sub sup : ElementId} :
    sup ∈ m.superTypes sub ↔ ∃ i, m.linkAt ⟨sub, .superTypes, i⟩ = some (.resolved sup) := by
  rw [mem_superTypes, Inherits, List.mem_iff_getElem?]
  rfl

/-- A supertype that a pass leaves was one before, or is below the root or one of its peers. -/
theorem mem_superTypes_resolve {count : ResolutionCount} (wf : m.WellFormed)
    (arePackages : ∀ p ∈ peers, m.isPackage p) (resolved : m.resolve root peers = .ok (m', count))
    {sub sup : ElementId} (isSuper : sup ∈ m'.superTypes sub) :
    sup ∈ m.superTypes sub ∨ ∃ top ∈ root :: peers, m.Within top sup := by
  obtain ⟨isRoot, -, -, -⟩ := wf.resolve_ok_iff_settled.mp resolved
  obtain ⟨i, after⟩ := mem_superTypes_iff.mp isSuper
  by_cases before : ∃ uri, m.Within root sub ∧
      m.linkAt ⟨sub, .superTypes, i⟩ = some (.symbolic uri)
  · obtain ⟨uri, within, before⟩ := before
    have inside : m.Within root (⟨sub, .superTypes, i⟩ : LinkSite).element := within
    obtain ⟨target, aims, points⟩ := linkAt_resolve_symbolic wf resolved inside before
    obtain rfl : target = sup := by simpa using points.symm.trans after
    exact .inr (wf.within_of_names isRoot arePackages within aims.1)
  · have kept : m'.linkAt ⟨sub, .superTypes, i⟩ = m.linkAt ⟨sub, .superTypes, i⟩ :=
      linkAt_resolve_other wf resolved fun uri within here => before ⟨uri, within, here⟩
    exact .inl (mem_superTypes_iff.mpr ⟨i, kept.symm.trans after⟩)

/-- Every ancestor is a supertype of some class. -/
theorem exists_superTypes_of_mem_ancestors {cls a : ElementId} (above : a ∈ m.ancestors cls) :
    ∃ sub, a ∈ m.superTypes sub := by
  obtain ⟨-, -, path⟩ := mem_ancestors.mp above
  obtain ⟨sub, -, last⟩ := Relation.TransGen.tail'_iff.mp path
  exact ⟨sub, mem_superTypes.mpr last⟩

namespace Forest

variable {size : Nat} (forest : m.Forest roots size)

include forest

theorem mem_roots (member : root ∈ roots) : root ∈ m.roots :=
  forest.placed.mem_roots.mpr ⟨forest.tops.isPackage root member, forest.tops.parent root member⟩

/-- The other roots and what is below them stand behind. -/
theorem behind_of_other (isRoot : root ∈ m.roots) (other : root ∉ roots) {id : ElementId}
    (within : m.Within root id) : size ≤ id.index := by
  obtain ⟨-, top⟩ := forest.placed.mem_roots.mp isRoot
  refine Nat.not_lt.mp fun old => ?_
  obtain ⟨first, member, chain⟩ := forest.covered id old
  have top' := forest.tops.parent first member
  have same : root = first := by
    rcases (forest.loaded.wellFormed.onChain within).total chain with below | below
    · exact (below.eq_of_top top).symm
    · exact below.eq_of_top top'
  exact other (same ▸ member)

end Forest

/-- What every pass of a round keeps: all supertypes that are resolved are below roots, and behind
the documents every link is resolved. -/
structure Settling (start m : Model) (size : Nat) : Prop where
  loaded : m.Loaded
  upTo : UpToLinks start m
  superTypes : ∀ sub, ∀ sup ∈ m.superTypes sub, ∃ root ∈ start.roots, start.Within root sup
  behind : ∀ site : LinkSite, size ≤ site.element.index →
    ∀ uri, m.linkAt site ≠ some (.symbolic uri)

theorem Settling.pass {start : Model} {size : Nat} {count : ResolutionCount}
    (settling : start.Settling m size) (placed : start.Placed) (isRoot : root ∈ start.roots)
    (subset : ∀ p ∈ peers, p ∈ start.roots)
    (resolved : m.resolve root peers = .ok (m', count)) : start.Settling m' size := by
  have wf := settling.loaded.wellFormed
  have arePackages : ∀ p ∈ peers, m.isPackage p := by
    intro p member
    rw [settling.upTo.isPackage]
    exact (placed.mem_roots.mp (subset p member)).1
  refine ⟨.resolved settling.loaded resolved,
    settling.upTo.trans (upToLinks_resolve wf resolved), ?superTypes, ?behind⟩
  case superTypes =>
    intro sub sup isSuper
    rcases mem_superTypes_resolve wf arePackages resolved isSuper with before | ⟨top, member, below⟩
    · exact settling.superTypes sub sup before
    · refine ⟨top, ?_, settling.upTo.sameOutline.within_iff.mp below⟩
      rcases List.mem_cons.mp member with rfl | isPeer
      · exact isRoot
      · exact subset top isPeer
  case behind =>
    -- A pass writes resolved links only, so none of them becomes symbolic again.
    intro site new uri there
    have kept := linkAt_resolve_other wf resolved fun uri _ => settling.behind site new uri
    rw [kept] at there
    exact settling.behind site new uri there

theorem Forest.settling {size : Nat} (forest : m.Forest roots size) : m.Settling m size where
  loaded := forest.loaded
  upTo := .refl m
  superTypes sub sup isSuper := by
    rw [forest.unbound sub] at isSuper
    cases isSuper
  behind site new uri there := by
    have held := List.mem_of_getElem? there
    exact Bool.false_ne_true (forest.behind site.element new site.field _ held)

/-- After a round over the roots, the trees of all roots and of all ancestors are linked. -/
theorem Forest.linked {size : Nat} {total total' : ResolutionCount}
    (forest : m.Forest roots size)
    (done : resolveEach m.roots roots (m, total) = .ok (m', total')) :
    (∀ root ∈ roots, m'.isResolved root) ∧ (∀ root ∈ m.roots, m'.Linked root) ∧
      ∀ id, m'.AncestorsLinked id := by
  obtain ⟨clean, -⟩ := clean_resolveEach forest.loaded forest.tops done
  have settling : m.Settling m' size :=
    resolveEach_keeps (P := fun n => m.Settling n size)
      (fun n n' root count member resolved before =>
        before.pass forest.placed (forest.mem_roots member)
          (fun p peer => List.mem_of_mem_filter peer) resolved)
      forest.settling done
  have within_iff {root id : ElementId} : m'.Within root id ↔ m.Within root id :=
    settling.upTo.sameOutline.within_iff
  have linked (root : ElementId) (isRoot : root ∈ m.roots) : m'.Linked root := by
    intro x within field link held
    obtain ⟨i, there⟩ := List.mem_iff_getElem?.mp held
    cases link with
    | resolved target => rfl
    | symbolic uri =>
      by_cases member : root ∈ roots
      · exact absurd there ((clean root member).links ⟨x, field, i⟩ uri within)
      · -- Other roots stand behind the documents, where no link was symbolic.
        have new := forest.behind_of_other isRoot member (within_iff.mp within)
        exact absurd there (settling.behind ⟨x, field, i⟩ new uri)
  refine ⟨fun root member => ?_, linked, fun id x _ ancestor above => ?_⟩
  · exact (clean root member).marks root .self (clean root member).isPackage
  · obtain ⟨sub, isSuper⟩ := exists_superTypes_of_mem_ancestors above
    obtain ⟨top, isRoot, below⟩ := settling.superTypes sub ancestor isSuper
    exact fun y within => linked top isRoot y ((within_iff.mpr below).trans within)

/-! ## Generation -/

/-- When documents have been read into an empty model and all their roots have been resolved, code
is generated for each root, whatever the settings are: every link that the generators look at has
been resolved, in the tree of the root and in the trees of the ancestors of its classes. -/
theorem generate_of_documents {total : ResolutionCount} (documents : Documents m roots)
    (resolved : m.resolveAll roots = .ok (m', total)) :
    ∀ root ∈ roots, m'.isResolved root ∧ m'.Linked root ∧ m'.AncestorsLinked root ∧
      ∀ settings, ∃ code, m'.generate settings root = .ok code := by
  intro root member
  have forest := documents.forest.withStandardPackage
  rw [resolveAll_eq] at resolved
  obtain ⟨marked, linked, above⟩ := forest.linked resolved
  have isPackage : m'.isPackage root :=
    ((upToLinks_resolveEach forest.loaded resolved).isPackage root).trans
      (forest.tops.isPackage root member)
  have here := linked root (forest.mem_roots member)
  exact ⟨marked root member, here, above root, fun settings =>
    generate_succeeds settings isPackage (marked root member) here (above root)⟩

/-- The class of one document has its supertype in the other one. -/
theorem generate_of_documents_farming :
    Documents farming [⟨0⟩, ⟨2⟩] ∧ ∃ m' total,
      farming.resolveAll [⟨0⟩, ⟨2⟩] = .ok (m', total) ∧
        ∃ code, m'.generate {} ⟨0⟩ = .ok code := by
  have builtHerd : ({} : Model).build "xsi:type" herdDocument none = .ok (herding, ⟨0⟩) := rfl
  have builtFarm : herding.build "xsi:type" farmDocument none = .ok (farming, ⟨2⟩) := rfl
  have documents : Documents farming [⟨0⟩, ⟨2⟩] := .more (.more .start builtHerd) builtFarm
  have succeeds : (farming.resolveAll [⟨0⟩, ⟨2⟩]).toOption.isSome := by decide +kernel
  obtain ⟨⟨m', total⟩, found⟩ := Option.isSome_iff_exists.mp succeeds
  have resolved := toOption_eq_some_iff.mp found
  obtain ⟨-, -, -, generated⟩ := generate_of_documents documents resolved ⟨0⟩ List.mem_cons_self
  exact ⟨documents, m', total, resolved, generated {}⟩

end Model

end Metamodel
