import Metamodel.Proofs.InheritanceCycles

/-!
Which symbolic links lint reports.

Elements have nine fields of links, and a pass of resolution settles all of them. Lint looks into
three: types, opposites and supertypes. A symbolic link in one of these is reported once, at the
element that holds it; one in another field is not reported, so a tree without a warning may still
have links that a pass has to rewrite, or that it cannot.

Results:
1. `filter_flawsAt`: the flaws of an element that are symbolic links.
2. `Edited.wellFormed`: documents, refused ones included, and edits of links leave sound models.
3. `lint_unresolvedLinks`: the warnings that lint gives for a tree, and what they leave out.
4. `lint_dangling_exception`: a link without a target in a tree without a warning.
-/

namespace Metamodel

namespace LinkRole

def all : List LinkRole := [.type, .opposite, .superType]

/-- The field that the links of this role are in. -/
def field : LinkRole → LinkField
  | .type => .eType
  | .opposite => .opposite
  | .superType => .superTypes

/-- The roles of links that are looked at for an instance of a metaclass. -/
def ofMetaclass (c : Metaclass) : List LinkRole := all.filter fun role => role.field.declaredBy = c

end LinkRole

/-- The metaclasses of a kind look at the links of its fields, and no two of them at the same. -/
theorem Kind.roles_perm (k : Kind) :
    (k.lineage.flatMap LinkRole.ofMetaclass).Perm (LinkRole.all.filter (·.field.isOn k)) := by
  cases k <;> decide

namespace LinkField

/-- The fields that lint does not look into. -/
def unchecked : List LinkField :=
  [.keys, .exceptions, .classifier, .typeParameter, .factoryInstance, .references]

theorem all_perm : all.Perm (LinkRole.all.map LinkRole.field ++ unchecked) := by decide

end LinkField

/-- The finding is about a link that is still symbolic. -/
def Flaw.isOpenLink (flaw : Flaw) : Bool := flaw.code = "unresolved-link"

namespace Model

/-- The symbolic links in a field of an element, by what they say. -/
def openLinks (m : Model) (field : LinkField) (id : ElementId) : List String :=
  (m.links field id).filterMap Link.uri?

/-- The symbolic links in some fields of the elements of a tree. -/
def openLinksWithin (m : Model) (fields : List LinkField) (root : ElementId) : List String :=
  (m.tree root).flatMap fun id => fields.flatMap fun field => m.openLinks field id

/-- A finding for each symbolic link of an element that lint looks at. -/
def openFindings (m : Model) (id : ElementId) : List Finding :=
  LinkRole.all.flatMap fun role =>
    (m.openLinks role.field id).map fun uri => ⟨m.qualifiedName id, .unresolvedLink role uri⟩

variable {m m' : Model}

/-! ## One element -/

theorem filter_superTypeFlaws (link : Link) :
    (m.superTypeFlaws link).filter Flaw.isOpenLink =
      link.uri?.toList.map (.unresolvedLink .superType) := by
  cases link with
  | symbolic uri => rfl
  | resolved target =>
    simp only [superTypeFlaws]
    split <;> rfl

theorem filter_oppositeFlaws (id : ElementId) (r : EReference) (opposite : ElementId) :
    (m.oppositeFlaws id r opposite).filter Flaw.isOpenLink = [] := by
  unfold oppositeFlaws
  split
  · rfl
  · rw [List.filter_append]
    split <;> split <;> rfl

theorem links_eType (id : ElementId) :
    m.links .eType id = ((m.typed? id).bind (·.eType)).toList := by
  unfold links typed?
  cases m.body? id <;> rfl

theorem links_opposite (id : ElementId) :
    m.links .opposite id = ((m.reference? id).bind (·.opposite)).toList := by
  unfold links reference?
  cases m.body? id with
  | none => rfl
  | some b => cases b <;> rfl

theorem filter_nameFlaws (id : ElementId) : (m.nameFlaws id).filter Flaw.isOpenLink = [] := by
  unfold nameFlaws
  split <;> rfl

theorem filter_boundFlaws (t : TypedElement) : (boundFlaws t).filter Flaw.isOpenLink = [] := by
  unfold boundFlaws
  rw [List.filter_append]
  split <;> split <;> rfl

theorem filter_typedFlaws (id : ElementId) :
    (m.typedFlaws id).filter Flaw.isOpenLink =
      (m.openLinks .eType id).map (.unresolvedLink .type) := by
  rw [openLinks, links_eType, typedFlaws]
  cases m.typed? id with
  | none => rfl
  | some t =>
    simp only [List.filter_append, filter_boundFlaws, List.nil_append, Option.bind_some]
    cases t.eType with
    | none => rfl
    | some link => cases link <;> rfl

theorem filter_attributeFlaws (id : ElementId) :
    (m.attributeFlaws id).filter Flaw.isOpenLink = [] := by
  unfold attributeFlaws
  split
  · split <;> rfl
  · rfl

theorem filter_referenceFlaws (id : ElementId) :
    (m.referenceFlaws id).filter Flaw.isOpenLink =
      (m.openLinks .opposite id).map (.unresolvedLink .opposite) := by
  rw [openLinks, links_opposite, referenceFlaws]
  cases m.reference? id with
  | none => rfl
  | some r =>
    rw [Option.bind_some]
    refine (List.filter_append ..).trans
      ((congrArg₂ (· ++ ·) (?type : _ = []) ?opposite).trans (List.nil_append _))
    case type =>
      split
      · split <;> rfl
      · rfl
    case opposite =>
      cases r.opposite with
      | none => rfl
      | some link =>
        cases link with
        | symbolic uri => rfl
        | resolved opposite => exact filter_oppositeFlaws id r opposite

/-- The flaws that are symbolic links are those of the fields that the metaclass declares. -/
theorem filter_flawsAt (c : Metaclass) (id : ElementId) :
    (m.flawsAt c id).filter Flaw.isOpenLink =
      (LinkRole.ofMetaclass c).flatMap fun role =>
        (m.openLinks role.field id).map (.unresolvedLink role) := by
  cases c
  case eNamedElement => exact filter_nameFlaws id
  case eTypedElement =>
    have roles : LinkRole.ofMetaclass .eTypedElement = [.type] := rfl
    rw [roles, List.flatMap_singleton]
    exact filter_typedFlaws id
  case eAttribute => exact filter_attributeFlaws id
  case eReference =>
    have roles : LinkRole.ofMetaclass .eReference = [.opposite] := rfl
    rw [roles, List.flatMap_singleton]
    exact filter_referenceFlaws id
  case eClass =>
    have roles : LinkRole.ofMetaclass .eClass = [.superType] := rfl
    rw [roles, List.flatMap_singleton, openLinks, LinkRole.field]
    simp only [flawsAt, List.filter_flatMap, filter_superTypeFlaws]
    rw [← List.map_flatMap, List.filterMap_eq_flatMap_toList]
  all_goals rfl

/-- The findings at one metaclass that are about symbolic links. -/
theorem filter_findingsAt (c : Metaclass) (id : ElementId) :
    (m.findingsAt (c, id)).filter (·.flaw.isOpenLink) =
      (LinkRole.ofMetaclass c).flatMap fun role => (m.openLinks role.field id).map fun uri =>
        ⟨m.qualifiedName id, .unresolvedLink role uri⟩ := by
  have redeclared : (if c = .eClass then m.redeclarations id else []).filter
      (·.flaw.isOpenLink) = [] := by
    refine List.filter_eq_nil_iff.mpr fun finding reported => ?_
    split at reported
    · obtain ⟨f, -, shown⟩ := List.mem_filterMap.mp reported
      obtain ⟨other, -, rfl⟩ := Option.map_eq_some_iff.mp shown
      exact Bool.false_ne_true
    · cases reported
  calc (m.findingsAt (c, id)).filter (·.flaw.isOpenLink)
    _ = ((m.flawsAt c id).map (Finding.mk (m.qualifiedName id))).filter (·.flaw.isOpenLink) := by
      rw [findingsAt, List.filter_append, redeclared, List.append_nil]
    _ = ((m.flawsAt c id).filter Flaw.isOpenLink).map (Finding.mk (m.qualifiedName id)) :=
      List.filter_map
    _ = _ := by
      rw [filter_flawsAt, List.map_flatMap]
      simp only [List.map_map]
      rfl

/-- A field that the kind of an element does not have is empty. -/
theorem openLinks_eq_nil {id : ElementId} {k : Kind} (known : m.kind? id = some k)
    {field : LinkField} (off : field.isOn k = false) : m.openLinks field id = [] := by
  obtain ⟨e, found, rfl⟩ := get?_of_kind? known
  rw [openLinks, links_of_get? found, Body.links_eq_nil off, List.filterMap_nil]

/-- What is reported about an element, for all its metaclasses together. -/
theorem findingsAt_perm (id : ElementId) :
    ((m.lineage id).flatMap fun c =>
      (m.findingsAt (c, id)).filter (·.flaw.isOpenLink)).Perm (m.openFindings id) := by
  simp only [filter_findingsAt]
  rw [← List.flatMap_assoc]
  cases known : m.kind? id with
  | none =>
    have missing : m.get? id = none := by simpa [kind?] using known
    have nothing (field : LinkField) : m.openLinks field id = [] := by
      simp [openLinks, links, body?, missing]
    simp [lineage, known, openFindings, nothing]
  | some k =>
    have onRoles : m.openFindings id = (LinkRole.all.filter (·.field.isOn k)).flatMap fun role =>
        (m.openLinks role.field id).map fun uri =>
          ⟨m.qualifiedName id, .unresolvedLink role uri⟩ :=
      flatMap_eq_filter fun role off => by rw [openLinks_eq_nil known off, List.map_nil]
    have lineage : m.lineage id = k.lineage := by simp [Model.lineage, known]
    rw [lineage, onRoles]
    exact k.roles_perm.flatMap_right _

/-! ## A tree -/

/-- Of what lint reports, the warnings about symbolic links are those of the traversal. -/
theorem lint_warnings_eq (m : Model) (root : ElementId) :
    (m.lint root).warnings.filter (·.flaw.code = "unresolved-link") =
      (m.steps root).flatMap fun step => (m.findingsAt step).filter (·.flaw.isOpenLink) := by
  rw [LintReport.filter_warnings, if_pos (by decide), filter_findings_lint root (by decide)]
  rfl

/-- The warnings about symbolic links are one for each such link in a field that is looked at. -/
theorem WellFormed.lint_warnings_perm (wf : m.WellFormed) {root : ElementId} {e : Element}
    (found : m.get? root = some e) :
    ((m.lint root).warnings.filter (·.flaw.code = "unresolved-link")).Perm
      ((m.tree root).flatMap m.openFindings) := by
  rw [lint_warnings_eq, wf.steps_eq found, List.flatMap_assoc]
  simp only [List.flatMap_map]
  exact ((wf.preorder_perm found).flatMap_right _).trans
    (List.Perm.flatMap_left _ fun id _ => findingsAt_perm id)

theorem length_openLinksWithin_append (fields fields' : List LinkField) (root : ElementId) :
    (m.openLinksWithin (fields ++ fields') root).length =
      (m.openLinksWithin fields root).length + (m.openLinksWithin fields' root).length := by
  have split : (m.openLinksWithin fields root ++ m.openLinksWithin fields' root).Perm
      (m.openLinksWithin (fields ++ fields') root) := by
    simpa only [openLinksWithin, List.flatMap_append] using List.flatMap_append_perm _ _ _
  rw [← split.length_eq, List.length_append]

theorem openLinksWithin_perm {fields fields' : List LinkField} (perm : fields.Perm fields')
    (root : ElementId) :
    (m.openLinksWithin fields root).Perm (m.openLinksWithin fields' root) :=
  List.Perm.flatMap_left _ fun _ _ => perm.flatMap_right _

/-- What a tree has in all fields is reported or stands in a field that is not looked into. -/
theorem WellFormed.length_openLinksWithin (wf : m.WellFormed) {root : ElementId} {e : Element}
    (found : m.get? root = some e) :
    (m.openLinksWithin LinkField.all root).length =
      ((m.lint root).warnings.filter (·.flaw.code = "unresolved-link")).length +
        (m.openLinksWithin LinkField.unchecked root).length := by
  have reported : (m.openLinksWithin (LinkRole.all.map LinkRole.field) root).length =
      ((m.tree root).flatMap m.openFindings).length := by
    simp [openLinksWithin, openFindings, List.length_flatMap, List.flatMap_map]
  rw [(openLinksWithin_perm LinkField.all_perm root).length_eq, length_openLinksWithin_append,
    reported, (wf.lint_warnings_perm found).length_eq]

/-! ## What a pass has to rewrite -/

theorem length_filterMap_uri? (links : List Link) :
    (links.filterMap Link.uri?).length = links.countP (!·.isResolved) := by
  induction links with
  | nil => rfl
  | cons link rest ih =>
    cases link <;> simpa [List.filterMap_cons, Link.uri?, Link.isResolved] using ih

theorem openLinksWithin_all (root : ElementId) :
    m.openLinksWithin LinkField.all root =
      ((m.tree root).flatMap m.allLinks).filterMap Link.uri? := by
  simp only [openLinksWithin, openLinks, allLinks, List.filterMap_flatMap]

/-- A pass succeeds without rewriting a link exactly if there is no symbolic one. -/
theorem WellFormed.resolve_zero_iff (wf : m.WellFormed) {root : ElementId}
    (isRoot : m.isPackage root) (peers : List ElementId) :
    (∃ m' already, m.resolve root peers = .ok (m', ⟨0, already⟩)) ↔
      m.openLinksWithin LinkField.all root = [] := by
  obtain ⟨e, found⟩ := get?_of_isPackage isRoot
  have count : (m.openLinksWithin LinkField.all root).length =
      (m.linkSites root).countP (!·.2.isResolved) := by
    rw [openLinksWithin_all, length_filterMap_uri?, ← (wf.links_perm found).countP_eq,
      List.countP_map]
    rfl
  rw [← List.length_eq_zero_iff, count]
  simp only [wf.resolve_ok_iff_settled]
  constructor
  · rintro ⟨m', already, -, -, -, same⟩
    exact (congrArg ResolutionCount.resolved same).symm
  · intro none
    refine ⟨_, _, isRoot, fun site uri met => ?_, rfl, by rw [none]⟩
    exact absurd rfl (List.countP_eq_zero.mp none _ met)

/-! ## Models under construction -/

/-- Events that are refused leave a well-formed model too. -/
theorem wellFormed_build_error {error : Error} {discriminator : String} {events : List Event}
    {fault : Option Error} (wf : m.WellFormed)
    (refused : m.build discriminator events fault = .error (error, m')) : m'.WellFormed := by
  have left := Construction.keeps_after_foldlM Extended.wellFormed (c := { model := m }) wf
    discriminator events
  unfold build at refused
  split at refused
  · next c handled =>
    cases refused
    rwa [handled] at left
  · next c handled =>
    rw [handled] at left
    split at refused
    · cases refused
      exact left
    · split at refused
      · cases refused
        exact left
      · cases refused

theorem sameOutline_setLinks (field : LinkField) (id : ElementId) (links : List Link) :
    SameOutline m (m.setLinks field id links) :=
  sameOutline_modifyBody fun b => by cases field <;> cases b <;> rfl

/-- Models made by documents, accepted or not, by the standard package, by passes of resolution and
by edits of links. -/
inductive Edited : Model → Prop
  | empty : Edited {}
  | document {m m' : Model} {root : ElementId} {discriminator : String} {events : List Event} :
      Edited m → m.build discriminator events none = .ok (m', root) → Edited m'
  | refused {m m' : Model} {error : Error} {discriminator : String} {events : List Event}
      {fault : Option Error} :
      Edited m → m.build discriminator events fault = .error (error, m') → Edited m'
  | standard {m : Model} : Edited m → Edited m.addStandardPackage
  | resolved {m m' : Model} {root : ElementId} {peers : List ElementId} {count : ResolutionCount} :
      Edited m → m.resolve root peers = .ok (m', count) → Edited m'
  | links {m : Model} {field : LinkField} {id : ElementId} {links : List Link} :
      Edited m → Edited (m.setLinks field id links)

theorem Edited.wellFormed (edited : m.Edited) : m.WellFormed := by
  induction edited with
  | empty => exact wellFormed_empty
  | document _ built ih => exact wellFormed_build ih built
  | refused _ refused ih => exact wellFormed_build_error ih refused
  | standard _ ih => exact wellFormed_addStandardPackage ih
  | resolved _ resolved ih => exact (sameOutline_resolve resolved).wellFormed ih
  | links _ ih => exact (sameOutline_setLinks _ _ _).wellFormed ih

/-- Lint warns of each symbolic link that the elements of a package tree have as a type, an opposite
or a supertype, once, and of no other. So the symbolic links of the tree are as many as the warnings
and those in the fields that are not looked into; and where there is neither a warning nor such a
link, and only there, a pass has nothing left to rewrite. -/
theorem lint_unresolvedLinks (edited : m.Edited) {root : ElementId} (isRoot : m.isPackage root) :
    ((m.lint root).warnings.filter (·.flaw.code = "unresolved-link")).Perm
        ((m.tree root).flatMap m.openFindings) ∧
      (m.openLinksWithin LinkField.all root).length =
        ((m.lint root).warnings.filter (·.flaw.code = "unresolved-link")).length +
          (m.openLinksWithin LinkField.unchecked root).length ∧
      ∀ peers, (∃ m' already, m.resolve root peers = .ok (m', ⟨0, already⟩)) ↔
        (m.lint root).warnings.filter (·.flaw.code = "unresolved-link") = [] ∧
          m.openLinksWithin LinkField.unchecked root = [] := by
  have wf := edited.wellFormed
  obtain ⟨e, found⟩ := get?_of_isPackage isRoot
  have total := wf.length_openLinksWithin found
  refine ⟨wf.lint_warnings_perm found, total, fun peers => ?_⟩
  rw [wf.resolve_zero_iff isRoot, ← List.length_eq_zero_iff, total, Nat.add_eq_zero_iff,
    List.length_eq_zero_iff, List.length_eq_zero_iff]

/-- A document with a link in each of five fields, none of which has a target. -/
def danglingDocument : List Event :=
  [.opening "EPackage" (.ofList [("name", "p")]),
    .opening "eClasses" (.ofList [("name", "A"), ("eSuperTypes", "#//Base")]),
    .opening "eReferences" (.ofList [("name", "next"), ("eType", "#//B"), ("eOpposite", "#//B/back"),
      ("eKeys", "#//B/id")]), .closing,
    .opening "eOperations" (.ofList [("name", "run"), ("eExceptions", "#//Failure")]), .closing,
    .closing,
    .closing]

/-- The model with the elements of `danglingDocument`. -/
def dangling : Model := (({} : Model).build "xsi:type" danglingDocument none).toOption.elim {} Prod.fst

/-- Three of the five links are reported. -/
theorem lint_unresolvedLinks_dangling :
    dangling.Edited ∧ dangling.isPackage ⟨0⟩ ∧
      (dangling.openLinksWithin LinkField.all ⟨0⟩).length = 5 ∧
      ((dangling.lint ⟨0⟩).warnings.filter (·.flaw.code = "unresolved-link")).length = 3 := by
  have built : ({} : Model).build "xsi:type" danglingDocument none = .ok (dangling, ⟨0⟩) := rfl
  have edited : dangling.Edited := .document .empty built
  have isRoot : dangling.isPackage ⟨0⟩ := by decide
  have total : (dangling.openLinksWithin LinkField.all ⟨0⟩).length = 5 := by decide +kernel
  have missed : (dangling.openLinksWithin LinkField.unchecked ⟨0⟩).length = 2 := by decide +kernel
  have split := (lint_unresolvedLinks edited isRoot).2.1
  rw [total, missed] at split
  exact ⟨edited, isRoot, total, by omega⟩

/-- A document with an operation that throws what the package does not have. -/
def throwingDocument : List Event :=
  [.opening "EPackage" (.ofList [("name", "p")]),
    .opening "eClasses" (.ofList [("name", "A")]),
    .opening "eOperations" (.ofList [("name", "run"), ("eExceptions", "#//Failure")]), .closing,
    .closing,
    .closing]

/-- The model with the elements of `throwingDocument`. -/
def throwing : Model := (({} : Model).build "xsi:type" throwingDocument none).toOption.elim {} Prod.fst

/-- A tree has a symbolic link that no pass can resolve, and lint does not warn of it. -/
theorem lint_dangling_exception :
    throwing.Edited ∧ throwing.isPackage ⟨0⟩ ∧
      throwing.openLinksWithin LinkField.all ⟨0⟩ = ["#//Failure"] ∧
      (throwing.lint ⟨0⟩).warnings.filter (·.flaw.code = "unresolved-link") = [] ∧
      throwing.resolve ⟨0⟩ [] = .error (.unresolvableReference "#//Failure" (some "p.A.run")) := by
  have built : ({} : Model).build "xsi:type" throwingDocument none = .ok (throwing, ⟨0⟩) := rfl
  have edited : throwing.Edited := .document .empty built
  have isRoot : throwing.isPackage ⟨0⟩ := by decide
  have total : throwing.openLinksWithin LinkField.all ⟨0⟩ = ["#//Failure"] := by decide +kernel
  have missed : throwing.openLinksWithin LinkField.unchecked ⟨0⟩ = ["#//Failure"] := by
    decide +kernel
  refine ⟨edited, isRoot, total, ?_, by decide +kernel⟩
  obtain ⟨e, found⟩ := get?_of_isPackage isRoot
  have split := edited.wellFormed.length_openLinksWithin found
  rw [total, missed, List.length_singleton] at split
  exact List.length_eq_zero_iff.mp (by omega)

end Model

end Metamodel
