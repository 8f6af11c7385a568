import Metamodel.Proofs.ResolvedGeneration

/-!
Models that documents and rounds of resolution make, in any order.

A round need not be over all roots, and documents may be read after it. The mark of a package says
that all links in its tree are resolved, and it says so at any time: a document marks nothing and
adds nothing to the trees that are there, and a pass marks the tree that it has been over. It does
not say so of the peers, where links may still be texts.

Results:
1. `Continued.soundMarks`: more elements behind those of a model.
2. `SoundMarks.pass`: one pass.
3. `Prepared.soundMarks`: marks can be relied on.
-/

namespace Metamodel

namespace Model

variable {m m' : Model} {root : ElementId} {peers : List ElementId}

/-- Models that documents and rounds of passes make. -/
inductive Prepared : Model → Prop
  | empty : Prepared {}
  | document {m m' : Model} {root : ElementId} {discriminator : String} {events : List Event}
      {fault : Option Error} :
      Prepared m → m.build discriminator events fault = .ok (m', root) → Prepared m'
  | resolved {m m' : Model} {roots : List ElementId} {total : ResolutionCount} :
      Prepared m → m.resolveAll roots = .ok (m', total) → Prepared m'

/-- Trees of marked packages are linked, and resolved supertypes are in the trees of packages. -/
structure SoundMarks (m : Model) : Prop where
  loaded : m.Loaded
  placed : m.Placed
  linked : ∀ p, m.isResolved p → m.Linked p
  superTypes : ∀ sub, ∀ sup ∈ m.superTypes sub, ∃ p, m.isPackage p ∧ m.Within p sup

theorem soundMarks_empty : SoundMarks {} where
  loaded := .empty
  placed := forest_empty.placed
  linked p _ x _ field link held := by
    rw [links_eq_nil_of_get?_eq_none rfl] at held
    cases held
  superTypes sub sup isSuper := by
    rw [forest_empty.unbound sub] at isSuper
    cases isSuper

/-! ## More elements -/

namespace Continued

variable (more : m.Continued m') {p x : ElementId}

include more

theorem within (wf : m.WellFormed) (within : m.Within p x) : m'.Within p x := by
  induction within with
  | self => exact .self
  | @member slot q c _ held ih =>
    obtain ⟨e, found⟩ := wf.owner_exists (wf.parent held)
    have same : m'.members slot q = m.members slot q := by
      rw [members, more.kept q (lt_size_of_get? found), members]
    exact .member ih (same ▸ held)

/-- The trees that were there have not grown. -/
theorem of_within (wf : m.WellFormed) (old : p.index < m.size) (within : m'.Within p x) :
    x.index < m.size ∧ m.Within p x := by
  induction within with
  | self => exact ⟨old, .self⟩
  | @member slot q c _ held ih =>
    obtain ⟨oldOwner, inside⟩ := ih
    have held : c ∈ m.members slot q := by rwa [members, more.kept q oldOwner] at held
    obtain ⟨e, found⟩ := exists_of_parent? (wf.parent held)
    exact ⟨lt_size_of_get? found, .member inside held⟩

/-- The trees that have come hold nothing of what was there. -/
theorem le_of_within (wf : m.WellFormed) (wf' : m'.WellFormed) (new : m.size ≤ p.index)
    (within : m'.Within p x) : m.size ≤ x.index := by
  induction within with
  | self => exact new
  | @member slot q c _ held ih =>
    refine Nat.not_lt.mp fun old => ?_
    have container : m.parent? c = some q := by
      have above := wf'.parent held
      rwa [parent?, more.kept c old] at above
    obtain ⟨e, found⟩ := wf.owner_exists container
    exact Nat.not_lt.mpr ih (lt_size_of_get? found)

/-- Marks can be relied on when elements come behind those that are there. -/
theorem soundMarks (sound : m.SoundMarks) (loaded : m'.Loaded) : m'.SoundMarks := by
  have wf := sound.loaded.wellFormed
  refine ⟨loaded, more.isPlaced sound.placed, ?linked, ?superTypes⟩
  case linked =>
    intro p marked x within field link held
    rcases Nat.lt_or_ge p.index m.size with old | new
    · obtain ⟨oldMember, inside⟩ := more.of_within wf old within
      have before : m.isResolved p := by
        rwa [isResolved, package?, body?, more.kept p old] at marked
      rw [links_congr (more.kept x oldMember)] at held
      exact sound.linked p before x inside field link held
    · have behind := more.le_of_within wf loaded.wellFormed new within
      exact more.linked p new marked x behind field link held
  case superTypes =>
    intro sub sup isSuper
    rcases Nat.lt_or_ge sub.index m.size with old | new
    · rw [superTypes, links_congr (more.kept sub old)] at isSuper
      obtain ⟨p, isPackage, below⟩ := sound.superTypes sub sup isSuper
      exact ⟨p, more.isPackage isPackage, more.within wf below⟩
    · rw [superTypes_eq_nil fun e found => more.unbound sub e new found] at isSuper
      cases isSuper

end Continued

/-! ## Passes -/

theorem Placed.upToLinks (placed : m.Placed) (upTo : UpToLinks m m') : m'.Placed := by
  intro id e found
  have key := upTo.map_get? (f := Element.id) (fun _ => rfl) id
  rw [found, Option.map_some] at key
  obtain ⟨e', found', same⟩ := Option.map_eq_some_iff.mp key.symm
  rw [← same, placed id e' found']

theorem linked_iff {p : ElementId} : m.Linked p ↔
    ∀ site uri, m.Within p site.element → m.linkAt site ≠ some (.symbolic uri) := by
  constructor
  · intro linked site uri within there
    have resolved := linked site.element within site.field _ (List.mem_of_getElem? there)
    exact Bool.false_ne_true resolved
  · intro clean x within field link held
    obtain ⟨i, there⟩ := List.mem_iff_getElem?.mp held
    cases link with
    | resolved target => rfl
    | symbolic uri => exact absurd there (clean ⟨x, field, i⟩ uri within)

/-- A pass marks no package outside the tree of its root. -/
theorem isResolved_of_resolve {count : ResolutionCount} (wf : m.WellFormed)
    (resolved : m.resolve root peers = .ok (m', count)) {p : ElementId}
    (marked : m'.isResolved p) (outside : ¬ m.Within root p) : m.isResolved p := by
  rwa [isResolved, package?, body?, get?_resolve wf resolved outside] at marked

/-- Marks can be relied on after a pass. -/
theorem SoundMarks.pass {count : ResolutionCount} (sound : m.SoundMarks)
    (arePackages : ∀ p ∈ peers, m.isPackage p)
    (resolved : m.resolve root peers = .ok (m', count)) : m'.SoundMarks := by
  have wf := sound.loaded.wellFormed
  have upTo := upToLinks_resolve wf resolved
  have clean := clean_resolve wf resolved
  have within_iff {top id : ElementId} : m'.Within top id ↔ m.Within top id :=
    upTo.sameOutline.within_iff
  refine ⟨.resolved sound.loaded resolved, sound.placed.upToLinks upTo, ?linked, ?superTypes⟩
  case linked =>
    intro p marked
    refine linked_iff.mpr fun site uri within there => ?_
    rcases Classical.em (m.Within root p) with inside | outside
    · exact clean.links site uri (within_iff.mpr (inside.trans (within_iff.mp within))) there
    · -- Outside the tree of the root, the pass only changes symbolic links, and there are none.
      have before := linked_iff.mp (sound.linked p (isResolved_of_resolve wf resolved marked outside))
      rw [linkAt_resolve_other wf resolved fun uri _ => before site uri (within_iff.mp within)] at there
      exact before site uri (within_iff.mp within) there
  case superTypes =>
    intro sub sup isSuper
    rcases mem_superTypes_resolve wf arePackages resolved isSuper with before | ⟨top, member, below⟩
    · obtain ⟨p, isPackage, below⟩ := sound.superTypes sub sup before
      exact ⟨p, (upTo.isPackage p).trans isPackage, within_iff.mpr below⟩
    · refine ⟨top, (upTo.isPackage top).trans ?_, within_iff.mpr below⟩
      rcases List.mem_cons.mp member with rfl | isPeer
      · exact (upTo.isPackage top).symm.trans clean.isPackage
      · exact arePackages top isPeer

/-- Marks can be relied on after a round of passes, whichever roots it is over. -/
theorem SoundMarks.round {roots : List ElementId} {total : ResolutionCount} (sound : m.SoundMarks)
    (resolved : m.resolveAll roots = .ok (m', total)) : m'.SoundMarks := by
  have start : m.withStandardPackage.SoundMarks :=
    m.continued_withStandardPackage.soundMarks sound sound.loaded.withStandardPackage
  rw [resolveAll_eq] at resolved
  let all := m.withStandardPackage.roots
  have arePackages : ∀ p ∈ all, m.withStandardPackage.isPackage p :=
    fun p member => (start.placed.mem_roots.mp member).1
  exact (resolveEach_keeps (P := fun n => n.SoundMarks ∧ ∀ p ∈ all, n.isPackage p)
    (fun n n' root count _ pass before =>
      ⟨before.1.pass (fun p peer => before.2 p (List.mem_of_mem_filter peer)) pass,
        fun p member => ((upToLinks_resolve before.1.loaded.wellFormed pass).isPackage p).trans
          (before.2 p member)⟩)
    ⟨start, arePackages⟩ resolved).1

/-! ## Documents and rounds -/

theorem Prepared.soundMarks (prepared : m.Prepared) : m.SoundMarks := by
  induction prepared with
  | empty => exact soundMarks_empty
  | @document m m' root discriminator events fault _ built sound =>
    have grown := (build_tree m discriminator events fault).1 m' root built
    obtain ⟨rfl, -⟩ := build_ok_iff.mp built
    exact grown.continued.soundMarks sound (.document sound.loaded built)
  | resolved _ done sound => exact sound.round done

/-- Where all packages have been resolved, everything that is inherited is linked. -/
theorem SoundMarks.inheritsLinked (sound : m.SoundMarks) (resolved : m.isResolved root)
    (all : ∀ p, m.isPackage p → m.isResolved p) : m.InheritsLinked root := by
  refine AncestorsLinked.inheritsLinked (fun x _ ancestor above => ?_) (sound.linked root resolved)
  obtain ⟨sub, isSuper⟩ := exists_superTypes_of_mem_ancestors above
  obtain ⟨p, isPackage, below⟩ := sound.superTypes sub ancestor isSuper
  exact (sound.linked p (all p isPackage)).within below

end Model

end Metamodel
