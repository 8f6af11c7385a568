import Metamodel.Proofs.Locality
import Metamodel.Proofs.Renaming

/-!
The order in which roots are resolved.

Each root has a tree of its own, and a pass depends on the other trees up to links only, so two
passes over different roots can be exchanged. A permutation of the roots is made of such exchanges.
After all passes every tree is clean, and a further round finds nothing to do.

Results:
1. `resolve_swap`: passes over two roots can be exchanged.
2. `resolveEach_perm`: roots can be resolved in any order.
3. `resolveEach_of_clean`: another round.
4. `resolveAll_order`: the same for all roots together, with the standard package.
-/

namespace Metamodel

namespace ResolutionCount

theorem add_def (a b : ResolutionCount) :
    a + b = ⟨a.resolved + b.resolved, a.alreadyResolved + b.alreadyResolved⟩ := rfl

theorem add_right_comm (a b c : ResolutionCount) : a + b + c = a + c + b := by
  simp only [add_def, mk.injEq]
  omega

/-- All links that were counted. -/
def total (count : ResolutionCount) : Nat := count.resolved + count.alreadyResolved

theorem total_add (a b : ResolutionCount) : (a + b).total = a.total + b.total :=
  Nat.add_add_add_comm a.resolved b.resolved a.alreadyResolved b.alreadyResolved

end ResolutionCount

namespace Model

variable {m m' m'' : Model} {root other : ElementId} {peers peers' all roots : List ElementId}
  {count count' : ResolutionCount}

/-- The packages are different ones and have no container. -/
structure Tops (m : Model) (roots : List ElementId) : Prop where
  distinct : roots.Nodup
  isPackage : ∀ root ∈ roots, m.isPackage root
  parent : ∀ root ∈ roots, m.parent? root = none

namespace Tops

theorem perm {roots' : List ElementId} (tops : m.Tops roots) (perm : roots.Perm roots') :
    m.Tops roots' :=
  ⟨perm.nodup_iff.mp tops.distinct,
    fun root member => tops.isPackage root (perm.mem_iff.mpr member),
    fun root member => tops.parent root (perm.mem_iff.mpr member)⟩

theorem sublist {roots' : List ElementId} (tops : m.Tops roots) (sub : roots'.Sublist roots) :
    m.Tops roots' :=
  ⟨tops.distinct.sublist sub, fun root member => tops.isPackage root (sub.subset member),
    fun root member => tops.parent root (sub.subset member)⟩

theorem tail (tops : m.Tops (root :: roots)) : m.Tops roots :=
  tops.sublist (List.sublist_cons_self root roots)

theorem ne_of_mem (tops : m.Tops (root :: roots)) (member : other ∈ roots) : root ≠ other := by
  rintro rfl
  exact (List.nodup_cons.mp tops.distinct).1 member

theorem upTo (tops : m.Tops roots) (upTo : UpToLinks m m') : m'.Tops roots :=
  ⟨tops.distinct, fun root member => (upTo.isPackage root).trans (tops.isPackage root member),
    fun root member => (upTo.sameOutline.parent? root).trans (tops.parent root member)⟩

/-- Different roots have no element in common. -/
theorem apart (tops : m.Tops roots) (wf : m.WellFormed) (member : root ∈ roots)
    (member' : other ∈ roots) (ne : root ≠ other) {id : ElementId} (within : m.Within root id) :
    ¬ m.Within other id := fun within' =>
  ne (wf.root_unique (tops.parent root member) (tops.parent other member') within within')

end Tops

/-! ## Two passes -/

/-- Passes over two roots can be exchanged. -/
theorem resolve_swap (loaded : m.Loaded) (tops : m.Tops [root, other])
    (first : m.resolve root peers = .ok (m', count))
    (second : m'.resolve other peers' = .ok (m'', count')) :
    ∃ n, m.resolve other peers' = .ok (n, count') ∧ n.resolve root peers = .ok (m'', count) := by
  have wf := loaded.wellFormed
  have wf' := (Loaded.resolved loaded first).wellFormed
  have upTo := upToLinks_resolve wf first
  have ne : root ≠ other := tops.ne_of_mem (List.mem_singleton_self other)
  have apart {id : ElementId} : m.Within root id → ¬ m.Within other id :=
    tops.apart wf (by simp) (by simp) ne
  have within_other {id : ElementId} : m'.Within other id ↔ m.Within other id :=
    upTo.sameOutline.within_iff
  -- The second pass finds its tree in the model as it was before the first one, ...
  obtain ⟨n, done, agree⟩ := resolve_local wf' upTo.symm
    (fun id within => (get?_resolve wf first fun here => apart here (within_other.mp within)).symm)
    second
  -- ... and the first one finds its own in what the second one leaves.
  have upToN := upToLinks_resolve wf done
  obtain ⟨n', done', agree'⟩ := resolve_local wf upToN
    (fun id within => get?_resolve wf done (apart within)) first
  have wfN := (Loaded.resolved loaded done).wellFormed
  have same : m'' = n' := by
    refine eq_of_get? fun id => ?_
    by_cases inRoot : m.Within root id
    · rw [get?_resolve wf' second fun here => apart inRoot (within_other.mp here),
        agree' id inRoot]
    · rw [get?_resolve wfN done' fun here => inRoot (upToN.sameOutline.within_iff.mp here)]
      by_cases inOther : m.Within other id
      · exact (agree id (within_other.mpr inOther)).symm
      · rw [get?_resolve wf' second fun here => inOther (within_other.mp here),
          get?_resolve wf first inRoot, get?_resolve wf done inOther]
  exact ⟨n, done, same ▸ done'⟩

/-- A clean tree stays clean while another root is resolved. -/
theorem Clean.resolve_other (clean : m.Clean other) (wf : m.WellFormed)
    (apart : ∀ id, m.Within other id → ¬ m.Within root id)
    (resolved : m.resolve root peers = .ok (m', count)) : m'.Clean other := by
  have upTo := upToLinks_resolve wf resolved
  have same {id : ElementId} (within : m'.Within other id) :
      m.Within other id ∧ m'.get? id = m.get? id := by
    have before := upTo.sameOutline.within_iff.mp within
    exact ⟨before, get?_resolve wf resolved (apart id before)⟩
  refine ⟨(upTo.isPackage other).trans clean.isPackage, fun site uri within => ?_,
    fun id within isPackage => ?_⟩
  · rw [linkAt_congr (same within).2]
    exact clean.links site uri (same within).1
  · have marked := clean.marks id (same within).1 ((upTo.isPackage id).symm.trans isPackage)
    rwa [Model.isResolved, package?, body?, (same within).2]

/-! ## A round of passes -/

section Round

variable {total total' : ResolutionCount}

theorem resolveEach_cons_ok_iff :
    resolveEach all (root :: roots) (m, total) = .ok (m', total') ↔
      ∃ n count, m.resolve root (all.filter (· ≠ root)) = .ok (n, count) ∧
        resolveEach all roots (n, total + count) = .ok (m', total') := by
  rw [resolveEach]
  cases m.resolve root (all.filter (· ≠ root)) with
  | error error => simp
  | ok result => simp [Prod.ext_iff]

/-- What every pass over one of the roots keeps is kept by all of them together. -/
theorem resolveEach_keeps {P : Model → Prop}
    (pass : ∀ m m' root count, root ∈ roots →
      m.resolve root (all.filter (· ≠ root)) = .ok (m', count) → P m → P m')
    (start : P m) (done : resolveEach all roots (m, total) = .ok (m', total')) : P m' := by
  induction roots generalizing m total with
  | nil =>
    cases done
    exact start
  | cons root rest ih =>
    obtain ⟨n, count, resolved, later⟩ := resolveEach_cons_ok_iff.mp done
    exact ih (fun m m' root count member => pass m m' root count (List.mem_cons_of_mem _ member))
      (pass m n root count List.mem_cons_self resolved start) later

theorem loaded_resolveEach (loaded : m.Loaded)
    (done : resolveEach all roots (m, total) = .ok (m', total')) : m'.Loaded :=
  resolveEach_keeps (fun _ _ _ _ _ resolved before => .resolved before resolved) loaded done

theorem upToLinks_resolveEach (loaded : m.Loaded)
    (done : resolveEach all roots (m, total) = .ok (m', total')) : UpToLinks m m' :=
  (resolveEach_keeps (P := fun n => n.Loaded ∧ UpToLinks m n)
    (fun _ _ _ _ _ resolved before =>
      ⟨.resolved before.1 resolved,
        before.2.trans (upToLinks_resolve before.1.wellFormed resolved)⟩)
    ⟨loaded, .refl m⟩ done).2

theorem linkCount_resolveEach (loaded : m.Loaded)
    (done : resolveEach all roots (m, total) = .ok (m', total')) (package : ElementId) :
    m'.linkCount package = m.linkCount package :=
  (resolveEach_keeps (P := fun n => n.Loaded ∧ n.linkCount package = m.linkCount package)
    (fun _ _ _ _ _ resolved before =>
      ⟨.resolved before.1 resolved,
        (linkCount_resolve before.1.wellFormed resolved package).trans before.2⟩)
    ⟨loaded, rfl⟩ done).2

/-- A clean tree of another root stays clean. -/
theorem Clean.resolveEach_other (clean : m.Clean root) (loaded : m.Loaded)
    (tops : m.Tops (root :: roots))
    (done : resolveEach all roots (m, total) = .ok (m', total')) : m'.Clean root := by
  refine (resolveEach_keeps (P := fun n => n.Loaded ∧ n.Tops (root :: roots) ∧ n.Clean root)
    (fun n n' other count member resolved before => ?_) ⟨loaded, tops, clean⟩ done).2.2
  obtain ⟨loaded, tops, clean⟩ := before
  have wf := loaded.wellFormed
  exact ⟨.resolved loaded resolved, tops.upTo (upToLinks_resolve wf resolved),
    clean.resolve_other wf (fun id => tops.apart wf List.mem_cons_self
      (List.mem_cons_of_mem _ member) (tops.ne_of_mem member)) resolved⟩

/-- Roots that can be resolved can be resolved in any order, with the same result. -/
theorem resolveEach_perm {roots' : List ElementId} (perm : roots.Perm roots') (loaded : m.Loaded)
    (tops : m.Tops roots) (done : resolveEach all roots (m, total) = .ok (m', total')) :
    resolveEach all roots' (m, total) = .ok (m', total') := by
  induction perm generalizing m total with
  | nil => exact done
  | cons root _ ih =>
    obtain ⟨n, count, resolved, later⟩ := resolveEach_cons_ok_iff.mp done
    have upTo := upToLinks_resolve loaded.wellFormed resolved
    exact resolveEach_cons_ok_iff.mpr
      ⟨n, count, resolved, ih (.resolved loaded resolved) (tops.tail.upTo upTo) later⟩
  | swap second first rest =>
    obtain ⟨n, count, resolved, next⟩ := resolveEach_cons_ok_iff.mp done
    obtain ⟨n', count', resolved', later⟩ := resolveEach_cons_ok_iff.mp next
    have two : m.Tops [first, second] :=
      tops.sublist (((List.nil_sublist rest).cons_cons second).cons_cons first)
    obtain ⟨o, exchanged, exchanged'⟩ := resolve_swap loaded two resolved resolved'
    rw [ResolutionCount.add_right_comm] at later
    exact resolveEach_cons_ok_iff.mpr ⟨o, count', exchanged,
      resolveEach_cons_ok_iff.mpr ⟨n', count, exchanged', later⟩⟩
  | trans perm _ ih ih' => exact ih' loaded (tops.perm perm) (ih loaded tops done)

/-- How many links the trees of these roots have together. -/
def linkTotal (m : Model) (roots : List ElementId) : Nat :=
  (roots.flatMap fun root => (m.tree root).flatMap m.allLinks).length

theorem linkTotal_cons : m.linkTotal (root :: roots) = m.linkCount root + m.linkTotal roots := by
  simp only [linkTotal, List.flatMap_cons, List.length_append, linkCount]

theorem linkTotal_perm {roots' : List ElementId} (perm : roots.Perm roots') :
    m.linkTotal roots' = m.linkTotal roots :=
  (perm.flatMap_right _).length_eq.symm

theorem linkTotal_congr (same : ∀ root, m'.linkCount root = m.linkCount root) :
    m'.linkTotal roots = m.linkTotal roots := by
  induction roots with
  | nil => rfl
  | cons root rest ih => rw [linkTotal_cons, linkTotal_cons, same, ih]

/-- After a round, the trees of the roots are clean and each of their links has been counted. -/
theorem clean_resolveEach (loaded : m.Loaded) (tops : m.Tops roots)
    (done : resolveEach all roots (m, total) = .ok (m', total')) :
    (∀ root ∈ roots, m'.Clean root) ∧
      total'.total = total.total + m.linkTotal roots := by
  induction roots generalizing m total with
  | nil =>
    cases done
    exact ⟨by simp, rfl⟩
  | cons root rest ih =>
    obtain ⟨n, count, resolved, later⟩ := resolveEach_cons_ok_iff.mp done
    have wf := loaded.wellFormed
    have loadedN := Loaded.resolved loaded resolved
    have topsN := tops.upTo (upToLinks_resolve wf resolved)
    obtain ⟨clean, counted⟩ := ih loadedN topsN.tail later
    refine ⟨fun other member => ?_, ?_⟩
    · rcases List.mem_cons.mp member with rfl | member
      · exact (clean_resolve wf resolved).resolveEach_other loadedN topsN later
      · exact clean other member
    · rw [counted, ResolutionCount.total_add, linkTotal_cons,
        linkTotal_congr (linkCount_resolve wf resolved), ResolutionCount.total,
        ResolutionCount.total, total_resolve wf resolved, Nat.add_assoc]

/-- Where the trees of all roots are clean, a round leaves the model as it is. -/
theorem resolveEach_of_clean (wf : m.WellFormed) (clean : ∀ root ∈ roots, m.Clean root)
    (total : ResolutionCount) :
    resolveEach all roots (m, total) = .ok (m, total + ⟨0, m.linkTotal roots⟩) := by
  induction roots generalizing total with
  | nil => rfl
  | cons root rest ih =>
    refine resolveEach_cons_ok_iff.mpr
      ⟨m, _, wf.resolve_of_clean (clean root List.mem_cons_self) _, ?_⟩
    rw [ih fun other later => clean other (List.mem_cons_of_mem root later)]
    simp [ResolutionCount.add_def, linkTotal_cons, Nat.add_assoc]

end Round

/-! ## The standard package -/

theorem isSome_packageByUri?_iff {nsUri : String} : (m.packageByUri? nsUri).isSome ↔
    ∃ id e, m.get? id = some e ∧ e.body.package?.bind (·.nsUri) = some nsUri := by
  rw [packageByUri?, Option.isSome_map, List.find?_isSome]
  simp only [decide_eq_true_eq, Array.mem_toList_iff, Array.mem_iff_getElem?]
  constructor
  · rintro ⟨e, ⟨i, there⟩, known⟩
    exact ⟨⟨i⟩, e, there, known⟩
  · rintro ⟨⟨i⟩, e, there, known⟩
    exact ⟨e, ⟨i, there⟩, known⟩

theorem UpToLinks.isSome_packageByUri? (upTo : UpToLinks m m') {nsUri : String}
    (known : (m.packageByUri? nsUri).isSome) : (m'.packageByUri? nsUri).isSome := by
  obtain ⟨id, e, found, hasUri⟩ := isSome_packageByUri?_iff.mp known
  have key := upTo.map_get? (f := fun e => e.body.package?.bind (·.nsUri))
    (fun e => by
      rw [Element.unlinked, Body.package?_unlinked]
      cases e.body.package? <;> rfl) id
  rw [found, Option.map_some, hasUri] at key
  obtain ⟨e', found', hasUri'⟩ := Option.map_eq_some_iff.mp key
  exact isSome_packageByUri?_iff.mpr ⟨id, e', found', hasUri'⟩

/-- The standard package stands behind the elements that were there. -/
theorem addStandardPackage_eq (m : Model) :
    m.addStandardPackage = m.followedBy ({} : Model).addStandardPackage := by
  rw [followedBy_addStandardPackage, followedBy_empty]

theorem isSome_packageByUri?_addStandardPackage (m : Model) :
    (m.addStandardPackage.packageByUri? Standard.nsUri).isSome := by
  have first : (({} : Model).addStandardPackage.get? ⟨0⟩).bind
      (fun e => e.body.package?.bind (·.nsUri)) = some Standard.nsUri := by decide +kernel
  obtain ⟨e, found, hasUri⟩ := Option.bind_eq_some_iff.mp first
  refine isSome_packageByUri?_iff.mpr
    ⟨(⟨0⟩ : ElementId).shift m.size, e.rename (.shift m.size), ?_, ?_⟩
  · rw [addStandardPackage_eq, get?_followedBy_shift, found, Option.map_some]
  · rw [← hasUri]
    cases h : e.body <;> simp [Element.rename, h, Body.rename, Body.package?]

theorem Tops.addStandardPackage (tops : m.Tops roots) : m.addStandardPackage.Tops roots := by
  have same {root : ElementId} (member : root ∈ roots) :
      m.addStandardPackage.get? root = m.get? root := by
    obtain ⟨e, found⟩ := get?_of_isPackage (tops.isPackage root member)
    rw [addStandardPackage_eq, get?_followedBy_of_lt m _ (lt_size_of_get? found)]
  refine ⟨tops.distinct, fun root member => ?_, fun root member => ?_⟩
  · rw [Model.isPackage, kind?, same member]
    exact tops.isPackage root member
  · rw [parent?, same member]
    exact tops.parent root member

/-- The model with the standard package, which is added unless it is there. -/
def withStandardPackage (m : Model) : Model :=
  if (m.packageByUri? Standard.nsUri).isNone then m.addStandardPackage else m

theorem resolveAll_eq (m : Model) (roots : List ElementId) :
    m.resolveAll roots =
      resolveEach m.withStandardPackage.roots roots (m.withStandardPackage, {}) := rfl

theorem withStandardPackage_of_isSome (known : (m.packageByUri? Standard.nsUri).isSome) :
    m.withStandardPackage = m := by
  rw [withStandardPackage, if_neg]
  simp [Option.isSome_iff_ne_none.mp known]

theorem isSome_packageByUri?_withStandardPackage (m : Model) :
    (m.withStandardPackage.packageByUri? Standard.nsUri).isSome := by
  unfold withStandardPackage
  split
  · exact m.isSome_packageByUri?_addStandardPackage
  · next known => simpa [Option.isSome_iff_ne_none] using known

theorem Loaded.withStandardPackage (loaded : m.Loaded) : m.withStandardPackage.Loaded := by
  unfold Model.withStandardPackage
  split
  · exact .standard loaded
  · exact loaded

theorem Tops.withStandardPackage (tops : m.Tops roots) : m.withStandardPackage.Tops roots := by
  unfold Model.withStandardPackage
  split
  · exact tops.addStandardPackage
  · exact tops

/-! ## All roots -/

/-- The order of the roots does not matter: either no order succeeds or all give the same model and
the same count. Another round, in any order, adds no package and finds everything resolved. -/
theorem resolveAll_order (loaded : m.Loaded) (tops : m.Tops roots) {roots' : List ElementId}
    (perm : roots.Perm roots') :
    (∀ m' total, m.resolveAll roots = .ok (m', total) ↔ m.resolveAll roots' = .ok (m', total)) ∧
    ∀ m' total, m.resolveAll roots = .ok (m', total) →
      m'.resolveAll roots' = .ok (m', ⟨0, total.resolved + total.alreadyResolved⟩) := by
  have loadedW := loaded.withStandardPackage
  have topsW := tops.withStandardPackage
  refine ⟨fun m' total => ?_, fun m' total done => ?_⟩
  · rw [resolveAll_eq, resolveAll_eq]
    exact ⟨resolveEach_perm perm loadedW topsW,
      resolveEach_perm perm.symm loadedW (topsW.perm perm)⟩
  · rw [resolveAll_eq] at done
    obtain ⟨clean, counted⟩ := clean_resolveEach loadedW topsW done
    have upTo := upToLinks_resolveEach loadedW done
    have known := upTo.isSome_packageByUri? m.isSome_packageByUri?_withStandardPackage
    have links : m'.linkTotal roots' = m.withStandardPackage.linkTotal roots :=
      (linkTotal_congr (linkCount_resolveEach loadedW done)).trans (linkTotal_perm perm)
    rw [resolveAll_eq, withStandardPackage_of_isSome known,
      resolveEach_of_clean (loaded_resolveEach loadedW done).wellFormed
        (fun root member => clean root (perm.mem_iff.mpr member)) {}, links]
    rw [ResolutionCount.total, ResolutionCount.total] at counted
    simp [ResolutionCount.add_def, counted]

/-- A document with a class whose supertype is in another document. -/
def herdDocument : List Event :=
  [.opening "EPackage" (.ofList [("name", "herd"), ("nsPrefix", "herd")]),
    .opening "eClasses"
      (.ofList [("name", "Cow"), ("eSuperTypes", "farm:EClass farm.ecore#//Animal")]), .closing,
    .closing]

/-- A document with a class that refers to one of `herdDocument`. -/
def farmDocument : List Event :=
  [.opening "EPackage" (.ofList [("name", "farm"), ("nsPrefix", "farm")]),
    .opening "eClasses" (.ofList [("name", "Animal")]),
    .opening "eReferences"
      (.ofList [("name", "calf"), ("eType", "herd:EClass herd.ecore#//Cow")]), .closing,
    .closing, .closing]

/-- The model with the elements of `herdDocument`. -/
def herding : Model := (({} : Model).build "xsi:type" herdDocument none).toOption.elim {} Prod.fst

/-- The model with the elements of both documents. -/
def farming : Model := (herding.build "xsi:type" farmDocument none).toOption.elim {} Prod.fst

/-- The two roots need each other as peers, and can be resolved in both orders. -/
theorem resolveAll_order_farming :
    ∃ m', farming.Loaded ∧ farming.Tops [⟨0⟩, ⟨2⟩] ∧
      farming.resolveAll [⟨0⟩, ⟨2⟩] = .ok (m', ⟨2, 0⟩) ∧
      farming.resolveAll [⟨2⟩, ⟨0⟩] = .ok (m', ⟨2, 0⟩) ∧
      m'.resolveAll [⟨2⟩, ⟨0⟩] = .ok (m', ⟨0, 2⟩) := by
  have builtHerd : ({} : Model).build "xsi:type" herdDocument none = .ok (herding, ⟨0⟩) := rfl
  have builtFarm : herding.build "xsi:type" farmDocument none = .ok (farming, ⟨2⟩) := rfl
  have loaded : farming.Loaded := .document (.document .empty builtHerd) builtFarm
  have tops : farming.Tops [⟨0⟩, ⟨2⟩] := by
    refine ⟨by decide, ?_, ?_⟩ <;> decide +kernel
  have reads : (farming.resolveAll [⟨0⟩, ⟨2⟩]).toOption.map Prod.snd = some ⟨2, 0⟩ := by
    decide +kernel
  obtain ⟨⟨m', total⟩, found, rfl⟩ := Option.map_eq_some_iff.mp reads
  have done : farming.resolveAll [⟨0⟩, ⟨2⟩] = .ok (m', ⟨2, 0⟩) := toOption_eq_some_iff.mp found
  obtain ⟨same, again⟩ := resolveAll_order loaded tops (List.Perm.swap (⟨2⟩ : ElementId) ⟨0⟩ [])
  exact ⟨m', loaded, tops, done, (same m' _).mp done, again m' _ done⟩

end Model

end Metamodel
