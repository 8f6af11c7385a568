import Metamodel.Proofs.Patches
import Metamodel.Proofs.Visits

/-!
The links that a traversal meets.

Each link is met on leaving the metaclass that declares its field, so a traversal of a tree meets
every link of it, and none twice.

Results:
1. `WellFormed.mem_linkSites`: the links that are met are those of the elements of the tree.
2. `WellFormed.nodup_linkSites`: no link is met twice.
3. `WellFormed.links_perm`: counting what is met counts the links of the tree.
-/

namespace Metamodel

/-- The metaclasses of a kind have its fields, and no two of them have one in common. -/
theorem Kind.fields_perm (k : Kind) :
    (k.lineage.flatMap LinkField.ofMetaclass).Perm (LinkField.all.filter (·.isOn k)) := by
  cases k <;> decide

namespace LinkField

theorem mem_all (field : LinkField) : field ∈ all := by
  cases field <;> decide

theorem nodup_all : all.Nodup := by decide

end LinkField

namespace Model

/-- The links of one field with their places. -/
def fieldSites (m : Model) (id : ElementId) (field : LinkField) : List (LinkSite × Link) :=
  (m.links field id).zipIdx.map fun (link, index) => (⟨id, field, index⟩, link)

/-- The links of one element with their places. -/
def elementSites (m : Model) (id : ElementId) : List (LinkSite × Link) :=
  LinkField.all.flatMap (m.fieldSites id)

/-- The links that are met at a visit. -/
def visitSites (m : Model) : Visit → List (LinkSite × Link)
  | .entering _ _ => []
  | .leaving c id => (LinkField.ofMetaclass c).flatMap (m.fieldSites id)

/-- The links that a traversal of `root` meets, in its order. -/
def linkSites (m : Model) (root : ElementId) : List (LinkSite × Link) :=
  (m.visits root).flatMap m.visitSites

variable {m : Model} {id root : ElementId}

theorem mem_fieldSites {field : LinkField} {site : LinkSite} {link : Link} :
    (site, link) ∈ m.fieldSites id field ↔
      site.element = id ∧ site.field = field ∧ m.linkAt site = some link := by
  obtain ⟨element, field', index⟩ := site
  simp only [fieldSites, List.mem_map, Prod.exists, Prod.mk.injEq, LinkSite.mk.injEq, linkAt]
  constructor
  · rintro ⟨link', index', there, ⟨rfl, rfl, rfl⟩, rfl⟩
    exact ⟨rfl, rfl, List.mem_zipIdx_iff_getElem?.mp there⟩
  · rintro ⟨rfl, rfl, there⟩
    exact ⟨link, index, List.mem_zipIdx_iff_getElem?.mpr there, ⟨rfl, rfl, rfl⟩, rfl⟩

theorem mem_elementSites {site : LinkSite} {link : Link} :
    (site, link) ∈ m.elementSites id ↔ site.element = id ∧ m.linkAt site = some link := by
  simp only [elementSites, List.mem_flatMap, mem_fieldSites]
  constructor
  · rintro ⟨field, -, own, -, there⟩
    exact ⟨own, there⟩
  · rintro ⟨own, there⟩
    exact ⟨site.field, LinkField.mem_all _, own, rfl, there⟩

theorem nodup_fieldSites (field : LinkField) : ((m.fieldSites id field).map Prod.fst).Nodup := by
  have place : (m.fieldSites id field).map Prod.fst =
      ((m.links field id).zipIdx.map Prod.snd).map fun index => ⟨id, field, index⟩ := by
    simp only [fieldSites, List.map_map]
    rfl
  rw [place, List.zipIdx_map_snd]
  exact List.Nodup.map (fun _ _ same => congrArg LinkSite.index same) List.nodup_range'

theorem nodup_elementSites : ((m.elementSites id).map Prod.fst).Nodup := by
  rw [elementSites, List.map_flatMap]
  refine List.nodup_flatMap.mpr ⟨fun field _ => nodup_fieldSites field, ?_⟩
  refine LinkField.nodup_all.imp fun ne => ?_
  intro site first second
  obtain ⟨⟨_, link⟩, there, rfl⟩ := List.mem_map.mp first
  obtain ⟨⟨_, link'⟩, there', rfl⟩ := List.mem_map.mp second
  exact ne ((mem_fieldSites.mp there).2.1.symm.trans (mem_fieldSites.mp there').2.1)

theorem map_snd_elementSites : (m.elementSites id).map Prod.snd = m.allLinks id := by
  have links (field : LinkField) : (m.fieldSites id field).map Prod.snd = m.links field id := by
    simp [fieldSites, Function.comp_def]
  rw [elementSites, List.map_flatMap, allLinks]
  exact List.flatMap_congr fun field _ => links field

/-- A field that the kind of an element does not have is empty. -/
theorem fieldSites_eq_nil {k : Kind} (known : m.kind? id = some k) {field : LinkField}
    (off : field.isOn k = false) : m.fieldSites id field = [] := by
  obtain ⟨e, found, rfl⟩ := get?_of_kind? known
  simp [fieldSites, links_of_get? found, Body.links_eq_nil off]

/-- The metaclasses of an element together meet each of its links once. -/
theorem ownVisits_perm : ((m.ownVisits id).flatMap m.visitSites).Perm (m.elementSites id) := by
  have own : (m.ownVisits id).flatMap m.visitSites =
      ((m.lineage id).flatMap LinkField.ofMetaclass).flatMap (m.fieldSites id) := by
    rw [ownVisits, List.flatMap_assoc, List.flatMap_assoc]
    exact List.flatMap_congr fun c _ => by simp [visitSites]
  rw [own]
  cases known : m.kind? id with
  | none =>
    have missing : m.get? id = none := by simpa [kind?] using known
    simp [lineage, known, elementSites, fieldSites, links, body?, missing]
  | some k =>
    have onFields :
        m.elementSites id = (LinkField.all.filter (·.isOn k)).flatMap (m.fieldSites id) :=
      flatMap_eq_filter fun field off => fieldSites_eq_nil known off
    have lineage : m.lineage id = k.lineage := by simp [Model.lineage, known]
    rw [lineage, onFields]
    exact k.fields_perm.flatMap_right _

namespace WellFormed

theorem linkSites_perm (wf : m.WellFormed) {e : Element} (found : m.get? root = some e) :
    (m.linkSites root).Perm ((m.tree root).flatMap m.elementSites) := by
  have visits := (wf.visits_perm found).flatMap_right m.visitSites
  rw [List.flatMap_assoc] at visits
  exact visits.trans (List.Perm.flatMap_left _ fun id _ => ownVisits_perm)

theorem mem_linkSites (wf : m.WellFormed) {e : Element} (found : m.get? root = some e)
    {site : LinkSite} {link : Link} :
    (site, link) ∈ m.linkSites root ↔ m.Within root site.element ∧ m.linkAt site = some link := by
  rw [(wf.linkSites_perm found).mem_iff, List.mem_flatMap]
  simp only [mem_elementSites, wf.mem_tree found]
  constructor
  · rintro ⟨id, within, rfl, there⟩
    exact ⟨within, there⟩
  · rintro ⟨within, there⟩
    exact ⟨site.element, within, rfl, there⟩

theorem nodup_linkSites (wf : m.WellFormed) {e : Element} (found : m.get? root = some e) :
    ((m.linkSites root).map Prod.fst).Nodup := by
  rw [((wf.linkSites_perm found).map Prod.fst).nodup_iff, List.map_flatMap]
  refine List.nodup_flatMap.mpr ⟨fun id _ => nodup_elementSites, ?_⟩
  refine (wf.nodup_tree found).imp fun ne => ?_
  intro site first second
  obtain ⟨⟨_, link⟩, there, rfl⟩ := List.mem_map.mp first
  obtain ⟨⟨_, link'⟩, there', rfl⟩ := List.mem_map.mp second
  exact ne ((mem_elementSites.mp there).1.symm.trans (mem_elementSites.mp there').1)

/-- What is met are the links of the elements of the tree, in another order. -/
theorem links_perm (wf : m.WellFormed) {e : Element} (found : m.get? root = some e) :
    ((m.linkSites root).map Prod.snd).Perm ((m.tree root).flatMap m.allLinks) := by
  refine ((wf.linkSites_perm found).map Prod.snd).trans ?_
  rw [List.map_flatMap, List.flatMap_congr fun id _ => map_snd_elementSites]

end WellFormed

end Model

end Metamodel
