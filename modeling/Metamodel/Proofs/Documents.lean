import Metamodel.Loading
import Metamodel.Proofs.DocumentTree
import Metamodel.Proofs.RootOrder

/-!
Models that documents make.

Documents are read one after the other into an empty model. Each of them adds a tree of its own
behind the elements that are there, and all of its links are texts. The standard package, if it is
added behind them, has only links that are resolved. So before a round of passes no class has a
resolved supertype, and every element is below one of the roots or in the standard package.

Results:
1. `Documents.readDocuments`: what is read into an empty model is made of documents.
2. `GrownTree.continued`, `continued_withStandardPackage`: both put elements behind those of a model.
3. `Documents.forest`: what documents leave.
4. `Forest.withStandardPackage`: what the standard package adds to that.
-/

namespace Metamodel

/-! ## Supertypes and marks that documents write -/

/-- No supertype link of the body points to an element. -/
def Body.Unbound (b : Body) : Prop := ∀ link ∈ b.links .superTypes, link.target? = none

theorem Body.unbound_of_links_eq {b b' : Body} (unbound : b.Unbound)
    (same : b'.links .superTypes = b.links .superTypes) : b'.Unbound := by
  intro link written
  rw [same] at written
  exact unbound link written

theorem Body.links_written (b : Body) : b.written.links .superTypes = b.links .superTypes := by
  cases b <;> rfl

theorem Body.unbound_blank (kind : Kind) : (blank kind).Unbound := by
  cases kind <;> exact fun _ written => nomatch written

theorem Body.isMarked_written (b : Body) : b.written.isMarked = b.isMarked := by
  cases b <;> rfl

theorem Body.isMarked_blank (kind : Kind) : (blank kind).isMarked = false := by
  cases kind <;> rfl

theorem PropertyFormat.target?_of_mem_linkList {value : String} {link : Link}
    (written : link ∈ linkList value) : link.target? = none := by
  obtain ⟨uri, -, rfl⟩ := List.mem_map.mp written
  rfl

namespace Element

/-- A property writes supertypes as texts or leaves them alone. -/
theorem unbound_set? {e e' : Element} {p : Property} {value : String} (unbound : e.body.Unbound)
    (set : e.set? p value = some e') : e'.body.Unbound := by
  obtain ⟨id, name, parent, annotations, body⟩ := e
  by_cases isSuper : p = .superTypes
  · subst isSuper
    obtain rfl := Option.some.inj set
    cases body with
    | eClass c => exact fun link written => PropertyFormat.target?_of_mem_linkList written
    | _ => exact unbound
  · refine Body.unbound_of_links_eq unbound ?_
    cases p <;> simp only [set?, Option.some.injEq, Option.map_eq_some_iff] at set <;>
      first
      | exact absurd rfl isSuper
      | subst set
        cases body <;> rfl
      | obtain ⟨parsed, -, rfl⟩ := set
        cases body <;> rfl

theorem isMarked_set? {e e' : Element} {p : Property} {value : String}
    (set : e.set? p value = some e') : e'.body.isMarked = e.body.isMarked := by
  obtain ⟨id, name, parent, annotations, body⟩ := e
  cases p <;> simp only [set?, Option.some.injEq, Option.map_eq_some_iff] at set <;>
    first
    | subst set
      cases body <;> rfl
    | obtain ⟨parsed, -, rfl⟩ := set
      cases body <;> rfl

/-- What every property keeps is kept by the attributes of a start. -/
theorem keeps_applyAttributes {P : Element → Prop}
    (keeps : ∀ {e e' : Element} {p : Property} {value : String}, e.set? p value = some e' →
      P e → P e') {skip : String} {attributes : List (String × String)} {e e' : Element}
    (start : P e) (applied : applyAttributes skip attributes e = .ok e') : P e' := by
  induction attributes generalizing e with
  | nil =>
    cases applied
    exact start
  | cons entry rest ih =>
    obtain ⟨key, value⟩ := entry
    unfold applyAttributes at applied
    split at applied
    · exact ih start applied
    · split at applied
      · next next accepted =>
        refine ih ?_ applied
        unfold applyAttribute at accepted
        split at accepted
        · cases accepted
        · split at accepted
          · cases accepted
          · next set =>
            cases accepted
            exact keeps set start
      · cases applied

end Element

/-- What a start creates has the id that it was given and writes its supertypes as texts. -/
theorem Start.Makes.unbound {discriminator : String} {s : Start} {id : ElementId} {e : Element}
    (makes : s.Makes discriminator id e) : e.id = id ∧ e.body.Unbound := by
  obtain ⟨kind, applied, -, accepted, same⟩ := makes
  have unbound : applied.body.Unbound := Element.keeps_applyAttributes (P := fun e => e.body.Unbound)
    (fun set unbound => Element.unbound_set? unbound set) (Body.unbound_blank kind) accepted
  have bare := congrArg Element.id (Element.bare_of_applyAttributes accepted)
  have body : e.body.written = applied.body.written := congrArg Element.body same
  have isId : e.written.id = applied.written.id := congrArg Element.id same
  refine ⟨isId.trans bare, Body.unbound_of_links_eq unbound ?_⟩
  rw [← Body.links_written, body, Body.links_written]

theorem Start.Makes.unmarked {discriminator : String} {s : Start} {id : ElementId} {e : Element}
    (makes : s.Makes discriminator id e) : e.body.isMarked = false := by
  obtain ⟨kind, applied, -, accepted, same⟩ := makes
  have unmarked : applied.body.isMarked = false :=
    Element.keeps_applyAttributes (P := fun e => e.body.isMarked = false)
      (fun set unmarked => (Element.isMarked_set? set).trans unmarked)
      (Body.isMarked_blank kind) accepted
  have body : e.body.written = applied.body.written := congrArg Element.body same
  rw [← Body.isMarked_written, body, Body.isMarked_written, unmarked]

namespace Model

variable {m m' : Model} {root : ElementId} {roots : List ElementId}

/-! ## Reading documents -/

/-- The model that documents make which are read into an empty model, and the roots that they give,
in order. -/
inductive Documents : Model → List ElementId → Prop
  | start : Documents {} []
  | more {m m' : Model} {roots : List ElementId} {root : ElementId} {discriminator : String}
      {events : List Event} {fault : Option Error} :
      Documents m roots → m.build discriminator events fault = .ok (m', root) →
      Documents m' (roots ++ [root])

theorem Documents.readDocuments {discriminator : String} {documents : List (List UInt8)}
    {more : List ElementId} (before : Documents m roots)
    (done : m.readDocuments discriminator documents = .ok (m', more)) :
    Documents m' (roots ++ more) := by
  induction documents generalizing m roots more with
  | nil =>
    cases done
    rwa [List.append_nil]
  | cons document rest ih =>
    unfold Model.readDocuments at done
    obtain ⟨⟨n, root⟩, first, done⟩ := bind_ok_iff.mp done
    obtain ⟨⟨n', later⟩, others, done⟩ := bind_ok_iff.mp done
    cases done
    have next := ih (.more before first) others
    rwa [List.append_assoc] at next

/-- All elements carry the id of the place where they are. -/
def Placed (m : Model) : Prop := ∀ id e, m.get? id = some e → e.id = id

theorem Placed.mem_roots (placed : m.Placed) :
    root ∈ m.roots ↔ m.isPackage root ∧ m.parent? root = none := by
  unfold Model.roots
  rw [List.mem_map]
  constructor
  · rintro ⟨e, there, rfl⟩
    obtain ⟨inside, kept⟩ := List.mem_filter.mp there
    obtain ⟨index, found⟩ := List.mem_iff_getElem?.mp inside
    have here : m.get? ⟨index⟩ = some e := by simpa [get?] using found
    rw [placed _ _ here]
    simpa [Model.isPackage, kind?, parent?, here, and_comm] using kept
  · rintro ⟨isPackage, top⟩
    obtain ⟨e, found⟩ := get?_of_isPackage isPackage
    refine ⟨e, List.mem_filter.mpr ⟨?_, ?_⟩, placed _ _ found⟩
    · exact Array.mem_toList_iff.mpr (Array.mem_of_getElem? found)
    · simpa [Model.isPackage, kind?, parent?, found, and_comm] using And.intro isPackage top

/-- A model that is ready for a round of passes over these roots. Its first `size` elements are the
trees of the roots; no class has a resolved supertype, and what stands behind has only links that
are resolved. -/
structure Forest (m : Model) (roots : List ElementId) (size : Nat) : Prop where
  loaded : m.Loaded
  tops : m.Tops roots
  placed : m.Placed
  covered : ∀ id : ElementId, id.index < size → ∃ root ∈ roots, m.OnChain id root
  unbound : ∀ id, m.superTypes id = []
  behind : ∀ id : ElementId, size ≤ id.index → ∀ field, ∀ link ∈ m.links field id, link.isResolved

theorem Tops.lt_size (tops : m.Tops roots) (member : root ∈ roots) : root.index < m.size := by
  obtain ⟨e, found⟩ := get?_of_isPackage (tops.isPackage root member)
  exact lt_size_of_get? found

theorem Tops.append_singleton (tops : m.Tops roots) (new : root ∉ roots) (isPackage : m.isPackage root)
    (top : m.parent? root = none) : m.Tops (roots ++ [root]) where
  distinct := tops.distinct.append (List.nodup_singleton root) (List.disjoint_singleton.mpr new)
  isPackage := List.forall_mem_append.mpr ⟨tops.isPackage, by simpa using isPackage⟩
  parent := List.forall_mem_append.mpr ⟨tops.parent, by simpa using top⟩

theorem get?_eq_none_of_le {id : ElementId} (outside : m.size ≤ id.index) : m.get? id = none := by
  cases found : m.get? id with
  | none => rfl
  | some e => exact absurd (lt_size_of_get? found) (Nat.not_lt.mpr outside)

theorem links_eq_nil_of_get?_eq_none {id : ElementId} (missing : m.get? id = none)
    (field : LinkField) : m.links field id = [] := by
  simp [links, body?, missing]

theorem superTypes_eq_nil {id : ElementId}
    (unbound : ∀ e, m.get? id = some e → e.body.Unbound) : m.superTypes id = [] := by
  cases found : m.get? id with
  | none => rw [superTypes, links_eq_nil_of_get?_eq_none found, List.filterMap_nil]
  | some e =>
    rw [superTypes, links_of_get? found]
    exact List.filterMap_eq_nil_iff.mpr (unbound e found)

/-! ## More elements -/

/-- A model with more elements behind those of another one. No class among them has a resolved
supertype, and if one of them is marked, then all links of all of them are resolved. -/
structure Continued (m m' : Model) : Prop where
  kept : ∀ id : ElementId, id.index < m.size → m'.get? id = m.get? id
  placed : ∀ id e, m.size ≤ id.index → m'.get? id = some e → e.id = id
  unbound : ∀ id e, m.size ≤ id.index → m'.get? id = some e → e.body.Unbound
  linked : ∀ p, m.size ≤ p.index → m'.isResolved p →
    ∀ x, m.size ≤ x.index → ∀ field, ∀ link ∈ m'.links field x, link.isResolved

/-- Behind the elements that were there, a document puts what its starts make. -/
theorem GrownTree.exists_makes {discriminator : String} {events : List Event}
    (grown : m.GrownTree discriminator events m' root) {id : ElementId} {e : Element}
    (new : m.size ≤ id.index) (found : m'.get? id = some e) :
    ∃ s : Start, s.Makes discriminator id e := by
  obtain ⟨s, ⟨inside, creates, rfl⟩, -⟩ := grown.made id new (lt_size_of_get? found)
  obtain ⟨e', found', makes⟩ := grown.makes s inside creates
  obtain rfl : e' = e := Option.some.inj (found'.symm.trans found)
  exact ⟨s, makes⟩

theorem GrownTree.continued {discriminator : String} {events : List Event}
    (grown : m.GrownTree discriminator events m' root) : m.Continued m' where
  kept := grown.kept
  placed id e new found := by
    obtain ⟨s, makes⟩ := grown.exists_makes new found
    exact makes.unbound.1
  unbound id e new found := by
    obtain ⟨s, makes⟩ := grown.exists_makes new found
    exact makes.unbound.2
  linked p new marked := by
    rw [isResolved_eq] at marked
    cases found : m'.get? p with
    | none => simp [body?, found] at marked
    | some e =>
      obtain ⟨s, makes⟩ := grown.exists_makes new found
      simp [body?, found, makes.unmarked] at marked

namespace Continued

variable (more : m.Continued m') {p x : ElementId}

include more

theorem isPackage (isPackage : m.isPackage p) : m'.isPackage p := by
  obtain ⟨e, found⟩ := get?_of_isPackage isPackage
  rwa [Model.isPackage, kind?, more.kept p (lt_size_of_get? found)]

theorem onChain (chain : m.OnChain x p) : m'.OnChain x p := by
  refine chain.mono fun {x p} container => ?_
  obtain ⟨e, found⟩ := exists_of_parent? container
  rwa [parent?, more.kept x (lt_size_of_get? found)]

theorem tops (tops : m.Tops roots) : m'.Tops roots where
  distinct := tops.distinct
  isPackage root member := more.isPackage (tops.isPackage root member)
  parent root member := by
    rw [parent?, more.kept root (tops.lt_size member)]
    exact tops.parent root member

theorem isPlaced (placed : m.Placed) : m'.Placed := by
  intro id e found
  rcases Nat.lt_or_ge id.index m.size with old | new
  · exact placed id e (more.kept id old ▸ found)
  · exact more.placed id e new found

theorem noSuperTypes (unbound : ∀ id, m.superTypes id = []) (id : ElementId) :
    m'.superTypes id = [] := by
  rcases Nat.lt_or_ge id.index m.size with old | new
  · rw [superTypes, links_congr (more.kept id old)]
    exact unbound id
  · exact superTypes_eq_nil fun e found => more.unbound id e new found

end Continued

/-! ## Documents one after the other -/

theorem forest_empty : ({} : Model).Forest [] ({} : Model).size where
  loaded := .empty
  tops := ⟨List.nodup_nil, by simp, by simp⟩
  placed id e found := absurd (lt_size_of_get? found) (Nat.not_lt_zero _)
  covered id inside := absurd inside (Nat.not_lt_zero _)
  unbound id := superTypes_eq_nil fun e found => absurd (lt_size_of_get? found) (Nat.not_lt_zero _)
  behind id outside field link held := by
    rw [links_eq_nil_of_get?_eq_none (get?_eq_none_of_le outside)] at held
    cases held

/-- One more document: its tree stands behind the others. -/
theorem Forest.more {discriminator : String} {events : List Event} {fault : Option Error}
    (forest : m.Forest roots m.size)
    (built : m.build discriminator events fault = .ok (m', root)) :
    m'.Forest (roots ++ [root]) m'.size := by
  have grown := (build_tree m discriminator events fault).1 m' root built
  have continued := grown.continued
  obtain ⟨isNext, isPackage, top⟩ := grown.first
  obtain ⟨isNone, -⟩ := build_ok_iff.mp built
  subst isNone
  refine ⟨.document forest.loaded built, ?tops, continued.isPlaced forest.placed, ?covered,
    continued.noSuperTypes forest.unbound, ?behind⟩
  case tops =>
    have new : root ∉ roots := by
      intro member
      have old := forest.tops.lt_size member
      rw [isNext] at old
      exact Nat.lt_irrefl _ old
    exact (continued.tops forest.tops).append_singleton new isPackage top
  case covered =>
    intro id there
    rcases Nat.lt_or_ge id.index m.size with old | new
    · obtain ⟨other, member, chain⟩ := forest.covered id old
      exact ⟨other, List.mem_append_left [root] member, continued.onChain chain⟩
    · exact ⟨root, List.mem_append_right roots (List.mem_singleton_self root),
        grown.chain id new there⟩
  case behind =>
    intro id outside field link held
    rw [links_eq_nil_of_get?_eq_none (get?_eq_none_of_le outside)] at held
    cases held

theorem Documents.forest (documents : Documents m roots) : m.Forest roots m.size := by
  induction documents with
  | start => exact forest_empty
  | more _ built ih => exact ih.more built

/-! ## The standard package -/

/-- The elements of the standard package have no supertypes, and no links that are to be resolved. -/
theorem standard_settled {id : ElementId} {e : Element}
    (found : ({} : Model).addStandardPackage.get? id = some e) :
    e.id = id ∧ e.body.links .superTypes = [] ∧
      ∀ field, ∀ link ∈ e.body.links field, link.isResolved := by
  have all : ∀ i : Fin ({} : Model).addStandardPackage.elements.size,
      let e := ({} : Model).addStandardPackage.elements[i]
      e.id = ⟨i⟩ ∧ e.body.links .superTypes = [] ∧
        ∀ field ∈ LinkField.all, ∀ link ∈ e.body.links field, link.isResolved := by
    decide +kernel
  obtain ⟨inside, rfl⟩ := Array.getElem?_eq_some_iff.mp found
  obtain ⟨isId, noSuper, settled⟩ := all ⟨id.index, inside⟩
  exact ⟨isId, noSuper, fun field => settled field (LinkField.mem_all field)⟩

theorem Body.links_rename (f : ElementId → ElementId) (field : LinkField) (b : Body) :
    (b.rename f).links field = (b.links field).map (Link.rename f) := by
  cases field <;> cases b <;> simp [Body.rename, Body.links, Body.typed?, Body.renameTyped,
    Body.renameFeature, Option.toList_map]

theorem get?_withStandardPackage_of_lt {id : ElementId} (old : id.index < m.size) :
    m.withStandardPackage.get? id = m.get? id := by
  unfold Model.withStandardPackage
  split
  · rw [addStandardPackage_eq, get?_followedBy_of_lt m _ old]
  · rfl

/-- What is behind, if anything, is an element of the standard package under another id. -/
theorem settled_withStandardPackage {id : ElementId} {e : Element} (new : m.size ≤ id.index)
    (found : m.withStandardPackage.get? id = some e) :
    e.id = id ∧ e.body.links .superTypes = [] ∧
      ∀ field, ∀ link ∈ e.body.links field, link.isResolved := by
  unfold Model.withStandardPackage at found
  split at found
  · rw [addStandardPackage_eq] at found
    obtain ⟨other, rfl⟩ := (m.lt_size_or_exists_shift id).resolve_left (Nat.not_lt.mpr new)
    rw [get?_followedBy_shift] at found
    obtain ⟨e', found', rfl⟩ := Option.map_eq_some_iff.mp found
    obtain ⟨isId, noSuper, settled⟩ := standard_settled found'
    refine ⟨congrArg (ElementId.shift m.size) isId, ?_, fun field link held => ?_⟩
    · rw [Element.rename, Body.links_rename, noSuper, List.map_nil]
    · rw [Element.rename, Body.links_rename] at held
      obtain ⟨link', held', rfl⟩ := List.mem_map.mp held
      have isResolved := settled field link' held'
      cases link' <;> exact isResolved
  · exact absurd (lt_size_of_get? found) (Nat.not_lt.mpr new)

theorem resolved_withStandardPackage {id : ElementId} (new : m.size ≤ id.index) (field : LinkField) :
    ∀ link ∈ m.withStandardPackage.links field id, link.isResolved := by
  intro link held
  cases found : m.withStandardPackage.get? id with
  | none =>
    rw [links_eq_nil_of_get?_eq_none found] at held
    cases held
  | some e =>
    rw [links_of_get? found] at held
    exact (settled_withStandardPackage new found).2.2 field link held

theorem continued_withStandardPackage (m : Model) : m.Continued m.withStandardPackage where
  kept id old := get?_withStandardPackage_of_lt old
  placed id e new found := (settled_withStandardPackage new found).1
  unbound id e new found link written := by
    rw [(settled_withStandardPackage new found).2.1] at written
    cases written
  linked _ _ _ x new field link held := resolved_withStandardPackage new field link held

/-- The standard package, if it is added, stands behind the documents. -/
theorem Forest.withStandardPackage (forest : m.Forest roots m.size) :
    m.withStandardPackage.Forest roots m.size where
  loaded := forest.loaded.withStandardPackage
  tops := forest.tops.withStandardPackage
  placed := m.continued_withStandardPackage.isPlaced forest.placed
  covered id old := by
    obtain ⟨root, member, chain⟩ := forest.covered id old
    exact ⟨root, member, m.continued_withStandardPackage.onChain chain⟩
  unbound := m.continued_withStandardPackage.noSuperTypes forest.unbound
  behind _ new field link held := resolved_withStandardPackage new field link held

end Model

end Metamodel
