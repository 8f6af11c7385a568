import Metamodel.Proofs.InheritedFeatures

/-!
Which elements lint finds fault with on their own account.

An element is looked at once for each of its metaclasses, and each code belongs to one metaclass. So
a flaw that an element has by itself, or by what its links lead to, is reported once; features that
redeclare inherited ones are reported for the class that holds them, which is in the tree with them.
Nothing of this depends on what a linter has met before.

Results:
1. `Linter.lint_eq`: a linter in any state reports what a new one does.
2. `mem_flawsOf_iff`, `nodup_localCodes`: the flaws of one element, each code once.
3. `lint_localFlaws`: for each code, the elements of the tree that lint reports.
-/

namespace Metamodel

open Relation (TransGen)

/-! ## Linters in any state -/

namespace Linter

theorem steady_visitor (m : Model) : (visitor m).Steady where
  descends := rfl
  goesOn entered := by cases entered; rfl

/-- A linter goes through the steps of the traversal one after the other. -/
theorem walk_visitor (m : Model) (id : ElementId) (s : Linter × List Finding) :
    m.walk (visitor m) id s = .ok ((m.steps id).foldl (meet m) s) := by
  rw [Model.walk_eq_foldlM (steady_visitor m), Model.steps_eq_entries, Model.entries]
  induction m.visits id generalizing s with
  | nil => rfl
  | cons visit rest ih =>
    cases visit with
    | entering c x => exact ih (meet m s (c, x))
    | leaving c x => exact ih s

/-- What is met is what was met before and the classes and findings of the steps. -/
theorem foldl_meet (m : Model) (steps : List (Metaclass × ElementId))
    (s : Linter × List Finding) :
    steps.foldl (meet m) s =
      (⟨s.1.classes ++ (steps.filter fun step => step.1 = .eClass).map Prod.snd⟩,
        s.2 ++ steps.flatMap m.findingsAt) := by
  induction steps generalizing s with
  | nil => simp
  | cons step rest ih =>
    rw [List.foldl_cons, ih]
    by_cases isClass : step.1 = .eClass <;> simp [meet, isClass, List.append_assoc]

/-- The report does not depend on the state of the linter. -/
theorem lint_eq (l : Linter) (m : Model) (id : ElementId) :
    l.lint m id =
      (⟨((m.steps id).filter fun step => step.1 = .eClass).map Prod.snd⟩, m.lint id) := by
  unfold lint
  rw [walk_visitor, foldl_meet]
  simp [Model.lint]

/-- Trees that are linted one after the other are linted each on its own. -/
theorem lintAll_eq (l : Linter) (m : Model) (ids : List ElementId) :
    l.lintAll m ids = ids.map m.lint := by
  induction ids generalizing l with
  | nil => rfl
  | cons id rest ih => simp [lintAll, lint_eq, ih]

end Linter

/-! ## Codes -/

namespace Metaclass

/-- The codes of the flaws that an instance of a metaclass has at most one of each, in the order in
which they are looked for. -/
def flawCodes : Metaclass → List String
  | .eNamedElement => ["missing-name"]
  | .eTypedElement => ["negative-lower-bound", "upper-below-lower"]
  | .eAttribute => ["attribute-typed-by-class"]
  | .eReference =>
    ["reference-typed-by-non-class", "opposite-not-reference", "opposite-mismatch",
      "containment-both-ends"]
  | _ => []

end Metaclass

theorem Kind.nodup_flawCodes (k : Kind) : (k.lineage.flatMap Metaclass.flawCodes).Nodup := by
  cases k <;> decide

namespace Flaw

/-- The flaw is one that an element has by itself or by what its type and its opposite are. -/
def isLocal : Flaw → Bool
  | .superTypeNotClass _ _ | .inheritanceCycle _ | .unresolvedLink _ _ | .redeclaredFeature _ =>
    false
  | _ => true

/-- The codes of the flaws that are not local. -/
def otherCodes : List String :=
  ["supertype-not-class", "inheritance-cycle", "unresolved-link", "redeclared-feature"]

theorem isLocal_of_code {flaw : Flaw} {code : String} (notOther : code ∉ otherCodes)
    (same : flaw.code = code) : flaw.isLocal := by
  subst same
  cases flaw <;> simp_all [Flaw.code, isLocal, otherCodes]

/-- The codes of the local flaws among some. -/
def localCodes (flaws : List Flaw) : List String := (flaws.filter isLocal).map code

theorem localCodes_append (flaws flaws' : List Flaw) :
    localCodes (flaws ++ flaws') = localCodes flaws ++ localCodes flaws' := by
  rw [localCodes, List.filter_append, List.map_append]
  rfl

theorem localCodes_ite (p : Prop) [Decidable p] (flaw : Flaw) :
    (localCodes (if p then [flaw] else [])).Sublist [flaw.code] := by
  split
  · exact List.filter_sublist.map code
  · exact List.nil_sublist _

theorem localCodes_ite_nil (p : Prop) [Decidable p] (flaw : Flaw) :
    (localCodes (if p then [] else [flaw])).Sublist [flaw.code] := by
  rw [← ite_not]
  exact localCodes_ite _ flaw

end Flaw

namespace Model

/-! ## The flaws of one element -/

/-- The reference is a containment. -/
def Contains (m : Model) (x : ElementId) : Prop := ∃ r, m.reference? x = some r ∧ r.containment

/-- What is wrong with an element, by what it is and what its links lead to. A missing name counts
as empty. -/
inductive Flawed (m : Model) (x : ElementId) : Flaw → Prop
  | missingName {k : Kind} : m.kind? x = some k → k.isNamed → m.label x = "" →
      Flawed m x (.missingName k)
  | negativeLowerBound {t : TypedElement} : m.typed? x = some t → t.lowerBound < 0 →
      Flawed m x (.negativeLowerBound t.lowerBound)
  | upperBelowLower {t : TypedElement} : m.typed? x = some t → 0 ≤ t.upperBound →
      t.upperBound < t.lowerBound → Flawed m x (.upperBelowLower t.upperBound t.lowerBound)
  | attributeTypedByClass {y : ElementId} : m.kind? x = some .eAttribute →
      .resolved y ∈ m.links .eType x → m.isClass y → Flawed m x (.attributeTypedByClass (m.label y))
  | referenceTypedByNonClass {y : ElementId} : m.kind? x = some .eReference →
      .resolved y ∈ m.links .eType x → ¬ m.isClass y →
      Flawed m x (.referenceTypedByNonClass (m.kindOf y) (m.label y))
  | oppositeNotReference {y : ElementId} : .resolved y ∈ m.links .opposite x →
      m.kind? y ≠ some .eReference → Flawed m x (.oppositeNotReference (m.kindOf y) (m.label y))
  | oppositeMismatch {y : ElementId} : .resolved y ∈ m.links .opposite x →
      m.kind? y = some .eReference → .resolved x ∉ m.links .opposite y →
      Flawed m x (.oppositeMismatch (m.qualifiedName y))
  | containmentBothEnds {y : ElementId} : .resolved y ∈ m.links .opposite x →
      m.Contains x → m.Contains y → x.index < y.index →
      Flawed m x (.containmentBothEnds (m.label x))
  | redeclaredFeature {cls above f : ElementId} : x ∈ m.ownFeatures cls →
      TransGen m.Inherits cls above → above ≠ cls → f ∈ m.ownFeatures above →
      m.label f = m.label x → Flawed m x (.redeclaredFeature (m.qualifiedName f))

/-- The flaws that are found in an element for all its metaclasses. -/
def flawsOf (m : Model) (x : ElementId) : List Flaw := (m.lineage x).flatMap fun c => m.flawsAt c x

variable {m : Model} {x y : ElementId} {flaw : Flaw}

theorem mem_lineage {c : Metaclass} : c ∈ m.lineage x ↔ ∃ k, m.kind? x = some k ∧ k.isA c := by
  unfold lineage Kind.isA
  cases m.kind? x <;> simp

theorem bind_target?_eq_some_iff {link? : Option Link} :
    link?.bind Link.target? = some y ↔ .resolved y ∈ link?.toList := by
  cases link? with
  | none => simp
  | some link => cases link <;> simp [Link.target?, eq_comm]

theorem typeTarget?_eq_some_iff : m.typeTarget? x = some y ↔ .resolved y ∈ m.links .eType x := by
  rw [links_eType]
  exact bind_target?_eq_some_iff

theorem links_opposite_of {r : EReference} (reads : m.reference? x = some r) :
    m.links .opposite x = r.opposite.toList := by
  rw [links_opposite, reads, Option.bind_some]

theorem target_opposite_iff {r : EReference} (reads : m.reference? x = some r) :
    r.opposite.bind Link.target? = some y ↔ .resolved y ∈ m.links .opposite x := by
  rw [links_opposite_of reads]
  exact bind_target?_eq_some_iff

theorem exists_reference?_iff : (∃ r, m.reference? x = some r) ↔ m.kind? x = some .eReference := by
  unfold reference? kind? body?
  cases m.get? x with
  | none => simp
  | some e =>
    obtain ⟨id, name, parent, annotations, body⟩ := e
    cases body <;> simp [Element.kind, Body.kind, Body.reference?]

/-- Only references have opposites. -/
theorem exists_reference?_of_opposite {link : Link} (written : link ∈ m.links .opposite x) :
    ∃ r, m.reference? x = some r := by
  rw [links_opposite] at written
  cases reads : m.reference? x with
  | none => simp [reads] at written
  | some r => exact ⟨r, rfl⟩

theorem eTypedElement_mem_lineage {t : TypedElement} (typed : m.typed? x = some t) :
    .eTypedElement ∈ m.lineage x := by
  unfold typed? body? at typed
  unfold lineage kind?
  cases found : m.get? x with
  | none => simp [found] at typed
  | some e =>
    obtain ⟨id, name, parent, annotations, body⟩ := e
    cases body <;> simp_all [Body.typed?, Element.kind, Body.kind] <;> decide

/-- A metaclass of a kind that no other kind is of is that of its elements alone. -/
theorem metaclass_mem_lineage {k : Kind} (alone : ∀ k' : Kind, k'.isA k.metaclass → k' = k) :
    k.metaclass ∈ m.lineage x ↔ m.kind? x = some k := by
  rw [mem_lineage]
  constructor
  · rintro ⟨k', known, isA⟩
    rw [known, alone k' isA]
  · intro known
    have isA : k.isA k.metaclass := by cases k <;> decide
    exact ⟨k, known, isA⟩

theorem eAttribute_mem_lineage : .eAttribute ∈ m.lineage x ↔ m.kind? x = some .eAttribute :=
  metaclass_mem_lineage (k := .eAttribute) fun k' => by cases k' <;> decide

theorem eReference_mem_lineage : .eReference ∈ m.lineage x ↔ m.kind? x = some .eReference :=
  metaclass_mem_lineage (k := .eReference) fun k' => by cases k' <;> decide

theorem mem_nameFlaws :
    flaw ∈ m.nameFlaws x ↔ m.label x = "" ∧ flaw = .missingName (m.kindOf x) := by
  unfold nameFlaws
  split <;> simp [*]

theorem mem_boundFlaws {t : TypedElement} :
    flaw ∈ boundFlaws t ↔
      t.lowerBound < 0 ∧ flaw = .negativeLowerBound t.lowerBound ∨
        (0 ≤ t.upperBound ∧ t.upperBound < t.lowerBound) ∧
          flaw = .upperBelowLower t.upperBound t.lowerBound := by
  rw [boundFlaws, List.mem_append]
  refine or_congr ?_ ?_ <;> split <;> simp [*]

theorem mem_typedFlaws (isLocal : flaw.isLocal) :
    flaw ∈ m.typedFlaws x ↔ ∃ t, m.typed? x = some t ∧ flaw ∈ boundFlaws t := by
  have notLink (link : Link) : flaw ∉ linkFlaws .type link := by
    cases link with
    | resolved => exact List.not_mem_nil
    | symbolic uri =>
      rintro found
      obtain rfl := List.mem_singleton.mp found
      cases isLocal
  unfold typedFlaws
  cases m.typed? x with
  | none => simp
  | some t => simp [notLink]

theorem mem_attributeFlaws :
    flaw ∈ m.attributeFlaws x ↔
      ∃ y, .resolved y ∈ m.links .eType x ∧ m.isClass y ∧
        flaw = .attributeTypedByClass (m.label y) := by
  simp only [← typeTarget?_eq_some_iff, attributeFlaws]
  cases m.typeTarget? x with
  | none => simp
  | some y => cases isClass : m.isClass y <;> simp [isClass]

theorem contains_iff {r : EReference} (reads : m.reference? x = some r) :
    m.Contains x ↔ r.containment := by
  simp [Contains, reads]

theorem mem_oppositeFlaws {r : EReference} (reads : m.reference? x = some r) :
    flaw ∈ m.oppositeFlaws x r y ↔
      (m.kind? y ≠ some .eReference ∧ flaw = .oppositeNotReference (m.kindOf y) (m.label y)) ∨
      (m.kind? y = some .eReference ∧ .resolved x ∉ m.links .opposite y ∧
        flaw = .oppositeMismatch (m.qualifiedName y)) ∨
      (m.Contains x ∧ m.Contains y ∧ x.index < y.index ∧
        flaw = .containmentBothEnds (m.label x)) := by
  unfold oppositeFlaws
  cases other : m.reference? y with
  | none =>
    have unknown : m.kind? y ≠ some .eReference := fun known => by
      obtain ⟨r', reads'⟩ := exists_reference?_iff.mpr known
      rw [reads'] at other
      cases other
    simp [unknown, Contains, other]
  | some r' =>
    have known : m.kind? y = some .eReference := exists_reference?_iff.mp ⟨r', other⟩
    simp [target_opposite_iff other, contains_iff reads, contains_iff other, known, and_assoc]

/-- Of what is found in a reference, the symbolic opposites are not local. -/
theorem mem_referenceFlaws (isLocal : flaw.isLocal) :
    flaw ∈ m.referenceFlaws x ↔ ∃ r, m.reference? x = some r ∧
      ((∃ y, .resolved y ∈ m.links .eType x ∧ ¬ m.isClass y ∧
        flaw = .referenceTypedByNonClass (m.kindOf y) (m.label y)) ∨
      ∃ y, .resolved y ∈ m.links .opposite x ∧ flaw ∈ m.oppositeFlaws x r y) := by
  unfold referenceFlaws
  cases reads : m.reference? x with
  | none => simp
  | some r =>
    simp only [← typeTarget?_eq_some_iff, links_opposite_of reads, List.mem_append,
      Option.some.injEq, exists_eq_left']
    refine or_congr ?type ?opposite
    case type =>
      cases m.typeTarget? x with
      | none => simp
      | some y => cases isClass : m.isClass y <;> simp [isClass]
    case opposite =>
      cases r.opposite with
      | none => simp
      | some link =>
        cases link with
        | resolved y => simp
        | symbolic uri =>
          have notLink : flaw ≠ .unresolvedLink .opposite uri := by
            rintro rfl
            cases isLocal
          simp [notLink]

theorem not_mem_superTypeFlaws (isLocal : flaw.isLocal) (link : Link) :
    flaw ∉ m.superTypeFlaws link := by
  cases link with
  | symbolic uri =>
    intro found
    obtain rfl := List.mem_singleton.mp found
    cases isLocal
  | resolved target =>
    intro found
    obtain ⟨-, found⟩ := List.mem_ite_nil_left.mp found
    obtain rfl := List.mem_singleton.mp found
    cases isLocal

theorem flawed_of_mem_flawsAt {c : Metaclass} (isLocal : flaw.isLocal) (general : c ∈ m.lineage x)
    (found : flaw ∈ m.flawsAt c x) : m.Flawed x flaw := by
  cases c <;> simp only [flawsAt, List.not_mem_nil] at found
  case eNamedElement =>
    obtain ⟨unnamed, rfl⟩ := mem_nameFlaws.mp found
    obtain ⟨k, known, named⟩ := mem_lineage.mp general
    rw [kindOf, known]
    exact .missingName known named unnamed
  case eTypedElement =>
    obtain ⟨t, typed, found⟩ := (mem_typedFlaws isLocal).mp found
    rcases mem_boundFlaws.mp found with ⟨negative, rfl⟩ | ⟨⟨bounded, below⟩, rfl⟩
    · exact .negativeLowerBound typed negative
    · exact .upperBelowLower typed bounded below
  case eAttribute =>
    obtain ⟨y, type, isClass, rfl⟩ := mem_attributeFlaws.mp found
    exact .attributeTypedByClass (eAttribute_mem_lineage.mp general) type isClass
  case eReference =>
    obtain ⟨r, reads, ⟨y, type, notClass, rfl⟩ | ⟨y, opposite, found⟩⟩ :=
      (mem_referenceFlaws isLocal).mp found
    · exact .referenceTypedByNonClass (eReference_mem_lineage.mp general) type notClass
    · rcases (mem_oppositeFlaws reads).mp found with
        ⟨other, rfl⟩ | ⟨other, apart, rfl⟩ | ⟨here, there, first, rfl⟩
      · exact .oppositeNotReference opposite other
      · exact .oppositeMismatch opposite other apart
      · exact .containmentBothEnds opposite here there first
  case eClass =>
    obtain ⟨link, -, found⟩ := List.mem_flatMap.mp found
    exact absurd found (not_mem_superTypeFlaws isLocal link)

theorem Flawed.mem_flawsOf (isLocal : flaw.isLocal) (flawed : m.Flawed x flaw) :
    flaw ∈ m.flawsOf x := by
  have inLineage {c : Metaclass} (general : c ∈ m.lineage x) (found : flaw ∈ m.flawsAt c x) :
      flaw ∈ m.flawsOf x := List.mem_flatMap.mpr ⟨c, general, found⟩
  have ofOpposite {y : ElementId} (opposite : .resolved y ∈ m.links .opposite x)
      (found : ∀ {r}, m.reference? x = some r → flaw ∈ m.oppositeFlaws x r y) :
      flaw ∈ m.flawsOf x := by
    obtain ⟨r, reads⟩ := exists_reference?_of_opposite opposite
    exact inLineage (eReference_mem_lineage.mpr (exists_reference?_iff.mp ⟨r, reads⟩))
      ((mem_referenceFlaws isLocal).mpr ⟨r, reads, .inr ⟨y, opposite, found reads⟩⟩)
  cases flawed with
  | @missingName k known named unnamed =>
    have kindOf : m.kindOf x = k := by rw [kindOf, known, Option.getD_some]
    exact inLineage (mem_lineage.mpr ⟨k, known, named⟩)
      (mem_nameFlaws.mpr ⟨unnamed, by rw [kindOf]⟩)
  | @negativeLowerBound t typed negative =>
    exact inLineage (eTypedElement_mem_lineage typed)
      ((mem_typedFlaws rfl).mpr ⟨t, typed, mem_boundFlaws.mpr (.inl ⟨negative, rfl⟩)⟩)
  | @upperBelowLower t typed bounded below =>
    exact inLineage (eTypedElement_mem_lineage typed)
      ((mem_typedFlaws rfl).mpr ⟨t, typed, mem_boundFlaws.mpr (.inr ⟨⟨bounded, below⟩, rfl⟩)⟩)
  | @attributeTypedByClass y known type isClass =>
    exact inLineage (eAttribute_mem_lineage.mpr known)
      (mem_attributeFlaws.mpr ⟨y, type, isClass, rfl⟩)
  | @referenceTypedByNonClass y known type notClass =>
    obtain ⟨r, reads⟩ := exists_reference?_iff.mpr known
    exact inLineage (eReference_mem_lineage.mpr known)
      ((mem_referenceFlaws rfl).mpr ⟨r, reads, .inl ⟨y, type, notClass, rfl⟩⟩)
  | oppositeNotReference opposite other =>
    exact ofOpposite opposite fun reads => (mem_oppositeFlaws reads).mpr (.inl ⟨other, rfl⟩)
  | oppositeMismatch opposite other apart =>
    exact ofOpposite opposite fun reads =>
      (mem_oppositeFlaws reads).mpr (.inr (.inl ⟨other, apart, rfl⟩))
  | containmentBothEnds opposite here there first =>
    exact ofOpposite opposite fun reads =>
      (mem_oppositeFlaws reads).mpr (.inr (.inr ⟨here, there, first, rfl⟩))
  | redeclaredFeature => cases isLocal

/-- The local flaws that are found in an element are those that it has. -/
theorem mem_flawsOf_iff (isLocal : flaw.isLocal) : flaw ∈ m.flawsOf x ↔ m.Flawed x flaw := by
  refine ⟨fun found => ?_, fun flawed => flawed.mem_flawsOf isLocal⟩
  obtain ⟨c, general, found⟩ := List.mem_flatMap.mp found
  exact flawed_of_mem_flawsAt isLocal general found

theorem localCodes_oppositeFlaws (r : EReference) :
    (Flaw.localCodes (m.oppositeFlaws x r y)).Sublist
      ["opposite-not-reference", "opposite-mismatch", "containment-both-ends"] := by
  unfold oppositeFlaws
  split
  · exact List.singleton_sublist.mpr List.mem_cons_self
  · rw [Flaw.localCodes_append]
    exact .cons _ (.append (Flaw.localCodes_ite_nil _ _) (Flaw.localCodes_ite _ _))

theorem localCodes_typedFlaws (x : ElementId) :
    (Flaw.localCodes (m.typedFlaws x)).Sublist ["negative-lower-bound", "upper-below-lower"] := by
  unfold typedFlaws
  cases m.typed? x with
  | none => exact List.nil_sublist _
  | some t =>
    have links : Flaw.localCodes (t.eType.toList.flatMap (linkFlaws .type)) = [] := by
      cases t.eType with
      | none => rfl
      | some link => cases link <;> rfl
    simp only [boundFlaws, Flaw.localCodes_append, links, List.append_nil]
    exact .append (Flaw.localCodes_ite _ _) (Flaw.localCodes_ite _ _)

theorem localCodes_attributeFlaws (x : ElementId) :
    (Flaw.localCodes (m.attributeFlaws x)).Sublist ["attribute-typed-by-class"] := by
  unfold attributeFlaws
  split
  · exact Flaw.localCodes_ite _ _
  · exact List.nil_sublist _

/-- The type of a reference and its opposite are looked at one after the other. -/
theorem localCodes_referenceFlaws (x : ElementId) :
    (Flaw.localCodes (m.referenceFlaws x)).Sublist (["reference-typed-by-non-class"] ++
      ["opposite-not-reference", "opposite-mismatch", "containment-both-ends"]) := by
  unfold referenceFlaws
  cases m.reference? x with
  | none => exact List.nil_sublist _
  | some r =>
    simp only [Flaw.localCodes_append]
    refine .append ?type ?opposite
    case type =>
      split
      · exact Flaw.localCodes_ite_nil _ _
      · exact List.nil_sublist _
    case opposite =>
      split
      · exact localCodes_oppositeFlaws r
      · exact List.nil_sublist _
      · exact List.nil_sublist _

/-- What an instance of a metaclass is found to have is of codes that belong to the metaclass, and
at most one of each. -/
theorem localCodes_flawsAt (c : Metaclass) (x : ElementId) :
    (Flaw.localCodes (m.flawsAt c x)).Sublist c.flawCodes := by
  cases c
  case eNamedElement => exact Flaw.localCodes_ite _ _
  case eTypedElement => exact localCodes_typedFlaws x
  case eAttribute => exact localCodes_attributeFlaws x
  case eReference => exact localCodes_referenceFlaws x
  case eClass =>
    have nothing : (m.flawsAt .eClass x).filter Flaw.isLocal = [] := by
      refine List.filter_eq_nil_iff.mpr fun flaw found isLocal => ?_
      obtain ⟨link, -, found⟩ := List.mem_flatMap.mp found
      exact not_mem_superTypeFlaws isLocal link found
    rw [Flaw.localCodes, nothing]
    exact List.nil_sublist _
  all_goals exact List.nil_sublist _

/-- No two local flaws of an element are of one code. -/
theorem nodup_localCodes (x : ElementId) : (Flaw.localCodes (m.flawsOf x)).Nodup := by
  cases known : m.kind? x with
  | none => simp [flawsOf, lineage, known, Flaw.localCodes]
  | some k =>
    have lineage : m.lineage x = k.lineage := by simp [Model.lineage, known]
    rw [flawsOf, lineage]
    refine List.Nodup.sublist ?_ k.nodup_flawCodes
    induction k.lineage with
    | nil => exact List.nil_sublist _
    | cons c general ih =>
      rw [List.flatMap_cons, List.flatMap_cons, Flaw.localCodes_append]
      exact (localCodes_flawsAt c x).append ih

/-- No two flaws of an element are of one code that is looked for. -/
theorem length_filter_flawsOf_le {code : String} (notOther : code ∉ Flaw.otherCodes)
    (x : ElementId) : ((m.flawsOf x).filter (·.code = code)).length ≤ 1 := by
  have counted : ((m.flawsOf x).filter (·.code = code)).length =
      (Flaw.localCodes (m.flawsOf x)).count code := by
    rw [Flaw.localCodes, List.count_eq_countP, List.countP_map, List.countP_filter,
      ← List.countP_eq_length_filter]
    refine List.countP_congr fun flaw _ => ?_
    simpa using Flaw.isLocal_of_code notOther
  rw [counted]
  exact List.nodup_iff_count_le_one.mp (nodup_localCodes x) code

/-! ## The flaws of a tree -/

/-- The finding that shows a flaw of an element. -/
def shown (m : Model) (entry : ElementId × Flaw) : Finding := ⟨m.qualifiedName entry.1, entry.2⟩

/-- Elements with a flaw each: those of the tree that have a flaw of this code, each of them once. -/
structure Enumerates (m : Model) (root : ElementId) (code : String)
    (reported : List (ElementId × Flaw)) : Prop where
  once : (reported.map Prod.fst).Nodup
  sound : ∀ x flaw, (x, flaw) ∈ reported → m.Within root x ∧ m.Flawed x flaw ∧ flaw.code = code
  complete : ∀ x flaw, m.Within root x → m.Flawed x flaw → flaw.code = code →
    x ∈ reported.map Prod.fst

theorem WellFormed.filter_findings_local (wf : m.WellFormed) {root : ElementId} {e : Element}
    (found : m.get? root = some e) {code : String} (notOther : code ∉ Flaw.otherCodes) :
    (m.lint root).findings.filter (·.flaw.code = code) =
      ((m.preorder root).flatMap fun x =>
        ((m.flawsOf x).filter (·.code = code)).map (x, ·)).map m.shown := by
  have notCycle : code ≠ "inheritance-cycle" := by
    rintro rfl
    exact notOther (by decide)
  have notRedeclared : code ≠ "redeclared-feature" := by
    rintro rfl
    exact notOther (by decide)
  have atStep (c : Metaclass) (x : ElementId) :
      (m.findingsAt (c, x)).filter (·.flaw.code = code) =
        ((m.flawsAt c x).filter (·.code = code)).map fun flaw => m.shown (x, flaw) := by
    have none : (if c = .eClass then m.redeclarations x else []).filter
        (·.flaw.code = code) = [] := by
      refine List.filter_eq_nil_iff.mpr fun finding reported same => ?_
      obtain ⟨-, reported⟩ := List.mem_ite_nil_right.mp reported
      rw [redeclarations_code reported] at same
      exact notRedeclared (of_decide_eq_true same).symm
    rw [findingsAt, List.filter_append, none, List.append_nil, List.filter_map]
    rfl
  rw [filter_findings_lint root notCycle, wf.steps_eq found, List.flatMap_assoc, List.map_flatMap]
  refine List.flatMap_congr fun x _ => ?_
  simp only [List.flatMap_map, atStep, flawsOf, List.filter_flatMap, List.map_flatMap, List.map_map]
  rfl

/-- The findings of a local code are about the elements of the tree that have a flaw of it. -/
theorem WellFormed.enumerates_local (wf : m.WellFormed) {root : ElementId} {e : Element}
    (found : m.get? root = some e) {code : String} (notOther : code ∉ Flaw.otherCodes) :
    ∃ reported, m.Enumerates root code reported ∧
      (m.lint root).findings.filter (·.flaw.code = code) = reported.map m.shown := by
  refine ⟨_, ⟨?once, fun x flaw listed => ?sound, fun x flaw inside flawed same => ?complete⟩,
    wf.filter_findings_local found notOther⟩
  case once =>
    rw [List.map_flatMap]
    refine List.nodup_flatMap.mpr ⟨fun x _ => ?_, ?_⟩
    · -- An element is listed as often as it has flaws of the code.
      rw [List.map_map]
      change (List.map (Function.const Flaw x) _).Nodup
      rw [List.map_const, List.nodup_replicate]
      exact length_filter_flawsOf_le notOther x
    · refine (wf.nodup_preorder found).imp fun {x y} apart z inX inY => apart ?_
      have here {x : ElementId} (shown : z ∈ (((m.flawsOf x).filter (·.code = code)).map
          (x, ·)).map Prod.fst) : z = x := by
        obtain ⟨entry, listed, rfl⟩ := List.mem_map.mp shown
        obtain ⟨flaw, -, rfl⟩ := List.mem_map.mp listed
        rfl
      rw [← here inX, ← here inY]
  case sound =>
    obtain ⟨x', inside, listed⟩ := List.mem_flatMap.mp listed
    obtain ⟨flaw', flawed, same⟩ := List.mem_map.mp listed
    cases same
    obtain ⟨flawed, same⟩ := List.mem_filter.mp flawed
    have same := of_decide_eq_true same
    exact ⟨(wf.mem_preorder found).mp inside,
      (mem_flawsOf_iff (Flaw.isLocal_of_code notOther same)).mp flawed, same⟩
  case complete =>
    have listed : (x, flaw) ∈ (m.preorder root).flatMap fun x =>
        ((m.flawsOf x).filter (·.code = code)).map (x, ·) := by
      refine List.mem_flatMap.mpr ⟨x, (wf.mem_preorder found).mpr inside, List.mem_map_of_mem ?_⟩
      exact List.mem_filter.mpr
        ⟨flawed.mem_flawsOf (Flaw.isLocal_of_code notOther same), decide_eq_true same⟩
    exact List.mem_map_of_mem listed

/-! ## Redeclared features -/

/-- The features of a class that have the name of an inherited one, with the last such one. -/
def redeclared (m : Model) (cls : ElementId) : List (ElementId × Flaw) :=
  (m.ownFeatures cls).filterMap fun f =>
    (m.lastNamed? (m.inheritedFeatures cls) (m.label f)).map fun other =>
      (f, .redeclaredFeature (m.qualifiedName other))

theorem redeclarations_eq (cls : ElementId) :
    m.redeclarations cls = (m.redeclared cls).map m.shown := by
  simp only [redeclarations, redeclared, List.map_filterMap, Option.map_map]
  rfl

theorem mem_redeclared {cls f : ElementId} :
    (f, flaw) ∈ m.redeclared cls ↔ f ∈ m.ownFeatures cls ∧
      ∃ other, m.lastNamed? (m.inheritedFeatures cls) (m.label f) = some other ∧
        flaw = .redeclaredFeature (m.qualifiedName other) := by
  simp only [redeclared, List.mem_filterMap, Option.map_eq_some_iff, Prod.mk.injEq]
  constructor
  · rintro ⟨f', own, other, last, rfl, rfl⟩
    exact ⟨own, other, last, rfl⟩
  · rintro ⟨own, other, last, rfl⟩
    exact ⟨f, own, other, last, rfl, rfl⟩

theorem map_fst_redeclared (cls : ElementId) :
    (m.redeclared cls).map Prod.fst = (m.ownFeatures cls).filter fun f =>
      (m.lastNamed? (m.inheritedFeatures cls) (m.label f)).isSome := by
  rw [redeclared, List.map_filterMap, ← List.filterMap_eq_filter]
  refine List.filterMap_congr fun f _ => ?_
  cases last : m.lastNamed? (m.inheritedFeatures cls) (m.label f) <;> simp [Option.guard, last]

/-- The last inherited feature of a name is one of a proper ancestor. -/
theorem of_lastNamed?_inherited {cls f : ElementId} {name : String}
    (last : m.lastNamed? (m.inheritedFeatures cls) name = some f) :
    m.label f = name ∧ ∃ above ∈ m.ancestors cls, f ∈ m.ownFeatures above := by
  unfold lastNamed? at last
  have named : m.label f = name := by simpa using List.find?_some last
  have listed := List.mem_reverse.mp (List.mem_of_find?_eq_some last)
  exact ⟨named, List.mem_flatMap.mp listed⟩

theorem exists_lastNamed?_inherited {cls above f : ElementId} (ancestor : above ∈ m.ancestors cls)
    (own : f ∈ m.ownFeatures above) :
    ∃ other, m.lastNamed? (m.inheritedFeatures cls) (m.label f) = some other := by
  refine Option.isSome_iff_exists.mp (List.find?_isSome.mpr ⟨f, ?_, decide_eq_true rfl⟩)
  exact List.mem_reverse.mpr (List.mem_flatMap.mpr ⟨above, ancestor, own⟩)

namespace SlotsSound

variable (sound : m.SlotsSound)

include sound

theorem redeclarations_eq_nil {cls : ElementId} (notClass : m.isClass cls = false) :
    m.redeclarations cls = [] := by
  have nothing : m.ownFeatures cls = [] := by
    refine List.eq_nil_iff_forall_not_mem.mpr fun f own => ?_
    rw [sound.isClass_of_ownFeature own] at notClass
    cases notClass
  rw [redeclarations_eq, redeclared, nothing, List.filterMap_nil, List.map_nil]

/-- What holds features is in the tree of a package with any of them. -/
theorem within_of_ownFeature {root cls f : ElementId} (isRoot : m.isPackage root)
    (own : f ∈ m.ownFeatures cls) (inside : m.Within root f) : m.Within root cls := by
  have above := sound.parent?_of_ownFeature own
  cases inside with
  | self =>
    have known : m.kind? root = some .ePackage := of_decide_eq_true isRoot
    rcases mem_ownFeatures.mp own with held | held <;>
      · have fits := (sound.fits held).2
        rw [known] at fits
        exact absurd fits (by decide)
  | member within held =>
    rw [sound.parent held] at above
    cases above
    exact within

end SlotsSound

theorem WellFormed.filter_findings_redeclared (wf : m.WellFormed) {root : ElementId} {e : Element}
    (found : m.get? root = some e) :
    (m.lint root).findings.filter (·.flaw.code = "redeclared-feature") =
      ((m.preorder root).flatMap m.redeclared).map m.shown := by
  have atStep (c : Metaclass) (x : ElementId) :
      (m.findingsAt (c, x)).filter (·.flaw.code = "redeclared-feature") =
        if c = .eClass then m.redeclarations x else [] := by
    have none : ((m.flawsAt c x).map (Finding.mk (m.qualifiedName x))).filter
        (·.flaw.code = "redeclared-feature") = [] := by
      refine List.filter_eq_nil_iff.mpr fun finding reported same => ?_
      obtain ⟨flaw, flawed, rfl⟩ := List.mem_map.mp reported
      exact code_flawsAt c x flaw flawed (by simp_all)
    have all : (if c = .eClass then m.redeclarations x else []).filter
        (·.flaw.code = "redeclared-feature") = if c = .eClass then m.redeclarations x else [] := by
      refine List.filter_eq_self.mpr fun finding reported => ?_
      obtain ⟨-, reported⟩ := List.mem_ite_nil_right.mp reported
      exact decide_eq_true (redeclarations_code reported)
    rw [findingsAt, List.filter_append, none, all, List.nil_append]
  rw [filter_findings_lint root (by decide), wf.steps_eq found, List.flatMap_assoc, List.map_flatMap]
  refine List.flatMap_congr fun x _ => ?_
  simp only [List.flatMap_map, atStep, ← redeclarations_eq]
  calc ((m.lineage x).flatMap fun c => if c = .eClass then m.redeclarations x else [])
    _ = if m.isClass x then m.redeclarations x else [] := by
      unfold lineage isClass
      cases m.kind? x with
      | none => simp
      | some k => cases k <;> simp [Kind.lineage, Kind.metaclass, Metaclass.lineage]
    _ = m.redeclarations x := by
      split
      · rfl
      · next notClass => exact (wf.redeclarations_eq_nil (by simpa using notClass)).symm

/-- The findings about redeclared features are about the features of the tree that have the name of
one of a proper ancestor of their class. -/
theorem WellFormed.enumerates_redeclared (wf : m.WellFormed) {root : ElementId}
    (isRoot : m.isPackage root) :
    ∃ reported, m.Enumerates root "redeclared-feature" reported ∧
      (m.lint root).findings.filter (·.flaw.code = "redeclared-feature") =
        reported.map m.shown := by
  obtain ⟨e, found⟩ := get?_of_isPackage isRoot
  refine ⟨_, ⟨?once, fun x flaw listed => ?sound, fun x flaw inside flawed same => ?complete⟩,
    wf.filter_findings_redeclared found⟩
  case once =>
    simp only [List.map_flatMap, map_fst_redeclared]
    refine List.nodup_flatMap.mpr ⟨fun cls _ => (wf.nodup_ownFeatures cls).filter _, ?_⟩
    refine (wf.nodup_preorder found).imp fun {a b} apart f inA inB => apart ?_
    exact wf.feature_owner_unique (List.mem_of_mem_filter inA) (List.mem_of_mem_filter inB)
  case sound =>
    obtain ⟨cls, inside, listed⟩ := List.mem_flatMap.mp listed
    obtain ⟨own, other, last, rfl⟩ := mem_redeclared.mp listed
    obtain ⟨named, above, ancestor, inherited⟩ := of_lastNamed?_inherited last
    obtain ⟨-, ne, path⟩ := mem_ancestors.mp ancestor
    have within := (wf.mem_preorder found).mp inside
    refine ⟨?_, .redeclaredFeature own path ne inherited named, rfl⟩
    exact (mem_ownFeatures.mp own).elim within.member within.member
  case complete =>
    cases flawed with
    | @redeclaredFeature cls above f own path ne inherited named =>
      have known : above ∈ m.ids :=
        mem_ids.mpr (get?_of_kind? (of_decide_eq_true (wf.isClass_of_ownFeature inherited)) |>.imp
          fun _ => And.left)
      obtain ⟨other, last⟩ := exists_lastNamed?_inherited (mem_ancestors.mpr ⟨known, ne, path⟩)
        inherited
      rw [named] at last
      -- The class is visited as well, because the root is a package and so not the feature itself.
      have within := wf.within_of_ownFeature isRoot own inside
      have listed : (x, .redeclaredFeature (m.qualifiedName other)) ∈
          (m.preorder root).flatMap m.redeclared :=
        List.mem_flatMap.mpr ⟨cls, (wf.mem_preorder found).mpr within,
          mem_redeclared.mpr ⟨own, other, last, rfl⟩⟩
      exact List.mem_map_of_mem listed
    | _ => simp [Flaw.code] at same

/-- Lint reports each local flaw of each element of a package tree once, whatever the linter has been
used for before: an error for each named element without a name, each typed element with a negative
lower bound or an upper bound below the lower one, each attribute typed by a class, each reference
typed by something else or with an opposite that is no reference; and a warning for each reference
whose opposite does not point back and each feature with the name of one of a proper ancestor of its
class. There is no other finding of these codes. -/
theorem lint_localFlaws (edited : m.Edited) {root : ElementId} (isRoot : m.isPackage root)
    (l : Linter) :
    (∀ code ∈ ["missing-name", "negative-lower-bound", "upper-below-lower",
        "attribute-typed-by-class", "reference-typed-by-non-class", "opposite-not-reference"],
      ∃ reported, m.Enumerates root code reported ∧
        (l.lint m root).2.errors.filter (·.flaw.code = code) = reported.map m.shown ∧
        (l.lint m root).2.warnings.filter (·.flaw.code = code) = []) ∧
    (∀ code ∈ ["opposite-mismatch", "redeclared-feature"],
      ∃ reported, m.Enumerates root code reported ∧
        (l.lint m root).2.warnings.filter (·.flaw.code = code) = reported.map m.shown ∧
        (l.lint m root).2.errors.filter (·.flaw.code = code) = []) := by
  have wf := edited.wellFormed
  obtain ⟨e, found⟩ := get?_of_isPackage isRoot
  rw [Linter.lint_eq]
  refine ⟨fun code member => ?errors, fun code member => ?warnings⟩
  case errors =>
    obtain ⟨isError, notOther⟩ : Flaw.severityOf code = .error ∧ code ∉ Flaw.otherCodes := by
      revert code
      decide
    obtain ⟨reported, are, shown⟩ := wf.enumerates_local found notOther
    refine ⟨reported, are, ?_, ?_⟩
    · rw [LintReport.filter_errors, if_pos isError, shown]
    · rw [LintReport.filter_warnings, if_neg (by simp [isError])]
  case warnings =>
    have isWarning : Flaw.severityOf code = .warning := by
      revert code
      decide
    obtain ⟨reported, are, shown⟩ : ∃ reported, m.Enumerates root code reported ∧
        (m.lint root).findings.filter (·.flaw.code = code) = reported.map m.shown := by
      rcases List.mem_pair.mp member with rfl | rfl
      · exact wf.enumerates_local found (by decide)
      · exact wf.enumerates_redeclared isRoot
    refine ⟨reported, are, ?_, ?_⟩
    · rw [LintReport.filter_warnings, if_pos isWarning, shown]
    · rw [LintReport.filter_errors, if_neg (by simp [isWarning])]

/-- A document with a class whose reference has the name of an inherited attribute, which is typed by
its class. -/
def resizedDocument : List Event :=
  [.opening "EPackage" (.ofList [("name", "p")]),
    .opening "eClasses" (.ofList [("name", "B"), ("eSuperTypes", "#//q/A")]),
    .opening "eReferences" (.ofList [("name", "size"), ("eType", "#//q/A")]), .closing,
    .closing,
    .opening "eSubpackages" (.ofList [("name", "q")]),
    .opening "eClasses" (.ofList [("name", "A")]),
    .opening "eAttributes" (.ofList [("name", "size"), ("eType", "#//A")]), .closing,
    .closing,
    .closing,
    .closing]

/-- The model with the elements of `resizedDocument`. -/
def resized : Model := (({} : Model).build "xsi:type" resizedDocument none).toOption.elim {} Prod.fst

/-- A linter that has met a class before reports both features. -/
theorem lint_localFlaws_resized :
    ∃ m' count, resized.resolve ⟨0⟩ [] = .ok (m', count) ∧ m'.Edited ∧ m'.isPackage ⟨0⟩ ∧
      (∃ reported, m'.Enumerates ⟨0⟩ "attribute-typed-by-class" reported ∧
        (⟨5⟩ : ElementId) ∈ reported.map Prod.fst ∧
        ((Linter.mk [⟨1⟩]).lint m' ⟨0⟩).2.errors.filter
          (·.flaw.code = "attribute-typed-by-class") = reported.map m'.shown) ∧
      ∃ reported, m'.Enumerates ⟨0⟩ "redeclared-feature" reported ∧
        (⟨2⟩ : ElementId) ∈ reported.map Prod.fst ∧
        ((Linter.mk [⟨1⟩]).lint m' ⟨0⟩).2.warnings.filter
          (·.flaw.code = "redeclared-feature") = reported.map m'.shown := by
  have built : ({} : Model).build "xsi:type" resizedDocument none = .ok (resized, ⟨0⟩) := rfl
  have reads : ((resized.resolve ⟨0⟩ []).toOption.map fun result =>
      decide (result.1.isPackage ⟨0⟩ ∧
        ((⟨1⟩ : ElementId) ∈ result.1.members .classes ⟨0⟩ ∧
          (⟨3⟩ : ElementId) ∈ result.1.members .subpackages ⟨0⟩ ∧
          (⟨4⟩ : ElementId) ∈ result.1.members .classes ⟨3⟩) ∧
        ((⟨2⟩ : ElementId) ∈ result.1.members .references ⟨1⟩ ∧
          (⟨5⟩ : ElementId) ∈ result.1.members .attributes ⟨4⟩) ∧
        (result.1.kind? ⟨5⟩ = some .eAttribute ∧
          .resolved ⟨4⟩ ∈ result.1.links .eType ⟨5⟩ ∧ result.1.isClass ⟨4⟩) ∧
        (⟨4⟩ : ElementId) ∈ result.1.superTypes ⟨1⟩ ∧
        result.1.label ⟨5⟩ = result.1.label ⟨2⟩)) = some true := by
    decide +kernel
  obtain ⟨⟨m', count⟩, found, shown⟩ := Option.map_eq_some_iff.mp reads
  obtain ⟨isRoot, ⟨inB, inQ, inA⟩, ⟨sizeB, sizeA⟩, ⟨known, type, isClass⟩, extends', named⟩ :=
    of_decide_eq_true shown
  have resolved := toOption_eq_some_iff.mp found
  have edited : m'.Edited := .resolved (.document .empty built) resolved
  obtain ⟨errors, warnings⟩ := lint_localFlaws edited isRoot ⟨[⟨1⟩]⟩
  obtain ⟨typed, areTyped, listedTyped, -⟩ := errors "attribute-typed-by-class" (by simp)
  obtain ⟨again, areAgain, listedAgain, -⟩ := warnings "redeclared-feature" (by simp)
  have redeclares : m'.Flawed ⟨2⟩ (.redeclaredFeature (m'.qualifiedName ⟨5⟩)) :=
    .redeclaredFeature (mem_ownFeatures.mpr (.inr sizeB)) (.single (mem_superTypes.mp extends'))
      (by decide) (mem_ownFeatures.mpr (.inl sizeA)) named
  refine ⟨m', count, resolved, edited, isRoot, ⟨typed, areTyped, ?_, listedTyped⟩,
    again, areAgain, ?_, listedAgain⟩
  · exact areTyped.complete ⟨5⟩ _ (.member (.member (.member .self inQ) inA) sizeA)
      (.attributeTypedByClass known type isClass) rfl
  · exact areAgain.complete ⟨2⟩ _ (.member (.member .self inB) sizeB) redeclares rfl

end Model

end Metamodel
