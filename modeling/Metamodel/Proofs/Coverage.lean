import Mathlib.Algebra.BigOperators.Group.List.Basic
import Mathlib.Algebra.GroupWithZero.Nat
import Metamodel.Proofs.ClassOrder
import Metamodel.Proofs.DeclaredNames
import Metamodel.Proofs.Preparation

/-!
What generation writes for a package tree.

Each package of the tree has a module, nested as the packages are. The module has an enum for each
enum of the package, a trait for each class and a struct for each concrete one, so far as these are
to be written, and the classes come in class order. All that is declared in the tree is counted.

The root must be resolved, and that is enough for enums and traits. For structs it is not: they have
the features of all ancestors, and those may be in the tree of a root that no round has been over.

Results:
1. `covers_of_module_ok`: the module of a package covers its tree.
2. `Covers.typeCount_eq`: how many declarations it has.
3. `generate_covers`: generation for a resolved root.
4. `generate_beside_unresolved`: a resolved root for which nothing can be generated.
-/

namespace Metamodel

open Generated
open Relation (TransGen)

/-! ## Results in order -/

/-- What is made of each result is made of the results of all elements. -/
theorem exists_of_mapM_map_ok {ε α β γ : Type} {f : α → Except ε β} {wrap : β → γ} {l : List α}
    {wrapped : List γ} (done : (l.mapM fun a => wrap <$> f a) = .ok wrapped) :
    ∃ bs : List β, l.map f = bs.map .ok ∧ wrapped = bs.map wrap := by
  induction l generalizing wrapped with
  | nil =>
    cases done
    exact ⟨[], rfl, rfl⟩
  | cons a l ih =>
    rw [List.mapM_cons] at done
    obtain ⟨first, here, done⟩ := bind_ok_iff.mp done
    obtain ⟨rest, later, done⟩ := bind_ok_iff.mp done
    cases done
    obtain ⟨b, known, rfl⟩ := map_ok_iff.mp here
    obtain ⟨bs, others, rfl⟩ := ih later
    exact ⟨b :: bs, by rw [List.map_cons, known, others, List.map_cons], rfl⟩

/-- Where some elements give one item each and the others none, the items are those of the former. -/
theorem exists_of_mapM_if_ok {ε α β γ : Type} {p : α → Bool} {f : α → Except ε β} {wrap : β → γ}
    {each : α → Except ε (List γ)} {l : List α} {items : List (List γ)}
    (either : ∀ a ∈ l, each a = if p a then (fun b => [wrap b]) <$> f a else .ok [])
    (done : l.mapM each = .ok items) :
    ∃ bs : List β, (l.filter p).map f = bs.map .ok ∧ items.flatten = bs.map wrap := by
  induction l generalizing items with
  | nil =>
    cases done
    exact ⟨[], rfl, rfl⟩
  | cons a l ih =>
    rw [List.mapM_cons, either a List.mem_cons_self] at done
    obtain ⟨first, here, done⟩ := bind_ok_iff.mp done
    obtain ⟨rest, later, done⟩ := bind_ok_iff.mp done
    cases done
    obtain ⟨bs, others, same⟩ := ih (fun b member => either b (List.mem_cons_of_mem a member)) later
    split at here
    · next kept =>
      obtain ⟨b, known, rfl⟩ := map_ok_iff.mp here
      refine ⟨b :: bs, ?_, by rw [List.flatten_cons, same, List.map_cons, List.singleton_append]⟩
      rw [List.filter_cons_of_pos kept, List.map_cons, known, others, List.map_cons]
    · next dropped =>
      cases here
      exact ⟨bs, by rwa [List.filter_cons_of_neg dropped], by rwa [List.flatten_cons, List.nil_append]⟩

theorem forall₂_of_map_eq {ε α β : Type} {f : α → Except ε β} {related : α → β → Prop} {l : List α}
    {bs : List β} (each : ∀ a ∈ l, ∀ b, f a = .ok b → related a b)
    (results : l.map f = bs.map .ok) : List.Forall₂ related l bs := by
  induction l generalizing bs with
  | nil =>
    obtain rfl := List.map_eq_nil_iff.mp results.symm
    exact .nil
  | cons a l ih =>
    obtain ⟨b, rest, rfl, known, others⟩ := List.map_eq_cons_iff.mp results.symm
    have later := ih (fun x member => each x (List.mem_cons_of_mem a member)) others.symm
    exact .cons (each a List.mem_cons_self b known.symm) later

/-! ## The declarations of one package -/

namespace Scope

/-- The enums, traits and structs of a package, so far as they are to be written: for its enums, for
its classes in the order `classes`, and for those of them that are concrete. -/
structure Declares (s : Scope) (p : ElementId) (classes : List ElementId) (enums : List Enum)
    (traits : List Trait) (structs : List Struct) : Prop where
  eachClass : classes.Perm (s.model.members .classes p)
  distinct : (s.model.enums p ++ classes).Nodup
  supertypesFirst : s.model.AcyclicAbove (s.model.members .classes p) →
    classes.Pairwise fun a b => ¬ TransGen s.model.Inherits a b
  enums : enums = if s.settings.emit.interfaces then (s.model.enums p).map s.enumItem else []
  traits : traits.map .ok = if s.settings.emit.interfaces then classes.map s.traitItem else []
  structs : structs.map .ok =
    if s.settings.emit.implementations then (classes.filter (isConcrete s.model)).map s.structItem
    else []

variable {s : Scope} {p : ElementId} {items : List Item}

/-- The items of a data type: one for an enum, and none for any other. -/
theorem interfaceItemsWithin_dataType {depth : Nat} {d : ElementId}
    (isType : s.model.kind? d = some .eDataType ∨ s.model.kind? d = some .eEnum) :
    s.interfaceItemsWithin (depth + 1) d =
      if decide (s.model.kind? d = some .eEnum) then (fun e => [.enum e]) <$> .ok (s.enumItem d)
      else .ok [] := by
  unfold interfaceItemsWithin
  rcases isType with known | known <;> simp only [known] <;> rfl

theorem interfaceItemsWithin_class {depth : Nat} {c : ElementId}
    (isClass : s.model.kind? c = some .eClass) :
    s.interfaceItemsWithin (depth + 1) c = (fun t => [.trait t]) <$> s.traitItem c := by
  unfold interfaceItemsWithin
  simp only [isClass]
  rfl

theorem structItemsWithin_class {depth : Nat} {c : ElementId}
    (isClass : s.model.kind? c = some .eClass) :
    s.structItemsWithin (depth + 1) c =
      if isConcrete s.model c then (fun t => [.struct t]) <$> s.structItem c else .ok [] := by
  unfold structItemsWithin
  simp only [isClass]
  rfl

/-- The items of the interface: the enums of the package and the traits of its classes. -/
theorem interfaceItems_ok (wf : s.model.WellFormed) (isPackage : s.model.isPackage p)
    (done : s.interfaceItems p = .ok items) :
    ∃ traits : List Trait, traits.map .ok = (s.model.sortedClasses p).map s.traitItem ∧
      items = ((s.model.enums p).map s.enumItem).map .enum ++ traits.map .trait := by
  obtain ⟨e, found⟩ := Model.get?_of_isPackage isPackage
  obtain ⟨size, sized⟩ := Nat.exists_eq_add_of_lt (Model.lt_size_of_get? found)
  rw [interfaceItems_eq wf isPackage, sized, map_ok_iff] at done
  obtain ⟨each, done, rfl⟩ := done
  rw [List.mapM_append] at done
  obtain ⟨ofTypes, doneTypes, done⟩ := bind_ok_iff.mp done
  obtain ⟨ofClasses, doneClasses, done⟩ := bind_ok_iff.mp done
  cases done
  obtain ⟨enums, made, sameEnums⟩ := exists_of_mapM_if_ok
    (fun d held => interfaceItemsWithin_dataType (wf.kind?_dataType held)) doneTypes
  obtain ⟨traits, written, sameTraits⟩ := exists_of_mapM_if_ok (p := fun _ => true)
    (fun c sorted => interfaceItemsWithin_class
      (wf.kind?_class (Model.mem_sortedClasses.mp sorted))) doneClasses
  rw [List.filter_true] at written
  have enumsOk : (s.model.enums p).map s.enumItem = enums := by
    have injective : Function.Injective (Except.ok : Enum → Except Error Enum) :=
      fun _ _ same => Except.ok.inj same
    refine List.map_injective_iff.mpr injective ?_
    rw [← made, List.map_map]
    rfl
  refine ⟨traits, written.symm, ?_⟩
  rw [List.flatten_append, sameEnums, sameTraits, enumsOk]

/-- The items of the implementation: the structs of the concrete classes of the package. -/
theorem structItems_ok (wf : s.model.WellFormed) (isPackage : s.model.isPackage p)
    (done : s.structItems p = .ok items) :
    ∃ structs : List Struct,
      structs.map .ok =
        ((s.model.sortedClasses p).filter (isConcrete s.model)).map s.structItem ∧
      items = structs.map .struct := by
  obtain ⟨e, found⟩ := Model.get?_of_isPackage isPackage
  obtain ⟨size, sized⟩ := Nat.exists_eq_add_of_lt (Model.lt_size_of_get? found)
  rw [structItems_eq wf isPackage, sized, map_ok_iff] at done
  obtain ⟨each, done, rfl⟩ := done
  obtain ⟨structs, written, same⟩ := exists_of_mapM_if_ok
    (fun c sorted => structItemsWithin_class
      (wf.kind?_class (Model.mem_sortedClasses.mp sorted))) done
  exact ⟨structs, written.symm, same⟩

/-- No element is a data type and a class of a package. -/
theorem nodup_enums_append (sound : s.model.SlotsSound) :
    (s.model.enums p ++ s.model.sortedClasses p).Nodup := by
  have classes : (s.model.sortedClasses p).Nodup :=
    (s.model.sortClasses_perm _).nodup_iff.mpr (sound.nodup .classes p)
  refine ((sound.nodup .dataTypes p).filter _).append classes fun x isEnum sorted => ?_
  have same := sound.slot_unique (List.mem_of_mem_filter isEnum) (Model.mem_sortedClasses.mp sorted)
  cases same

theorem items_eq : s.items p =
    (if s.settings.emit.interfaces then s.interfaceItems p else pure []) >>= fun interfaces =>
      (if s.settings.emit.implementations then s.structItems p else pure []) >>= fun structs =>
        pure (interfaces ++ structs) := by
  unfold Scope.items
  simp only
  split <;> split <;> rfl

/-- The items of a package are its enums, traits and structs. -/
theorem declares_of_items_ok (wf : s.model.WellFormed) (isPackage : s.model.isPackage p)
    (done : s.items p = .ok items) :
    ∃ enums traits structs, s.Declares p (s.model.sortedClasses p) enums traits structs ∧
      items = enums.map .enum ++ traits.map .trait ++ structs.map .struct := by
  rw [items_eq] at done
  obtain ⟨interfaces, doneInterfaces, done⟩ := bind_ok_iff.mp done
  obtain ⟨implementations, doneStructs, done⟩ := bind_ok_iff.mp done
  cases done
  have first : ∃ (enums : List Enum) (traits : List Trait),
      enums = (if s.settings.emit.interfaces then (s.model.enums p).map s.enumItem else []) ∧
      traits.map .ok =
        (if s.settings.emit.interfaces then (s.model.sortedClasses p).map s.traitItem else []) ∧
      interfaces = enums.map .enum ++ traits.map .trait := by
    split at doneInterfaces
    · next wanted =>
      obtain ⟨traits, written, same⟩ := interfaceItems_ok wf isPackage doneInterfaces
      exact ⟨_, traits, by rw [if_pos wanted], by rw [if_pos wanted, written], same⟩
    · next unwanted =>
      cases doneInterfaces
      exact ⟨[], [], by rw [if_neg unwanted], by rw [if_neg unwanted]; rfl, rfl⟩
  have second : ∃ structs : List Struct,
      structs.map .ok =
        (if s.settings.emit.implementations then
          ((s.model.sortedClasses p).filter (isConcrete s.model)).map s.structItem else []) ∧
      implementations = structs.map .struct := by
    split at doneStructs
    · next wanted =>
      obtain ⟨structs, written, same⟩ := structItems_ok wf isPackage doneStructs
      exact ⟨structs, by rw [if_pos wanted, written], same⟩
    · next unwanted =>
      cases doneStructs
      exact ⟨[], by rw [if_neg unwanted]; rfl, rfl⟩
  obtain ⟨enums, traits, isEnums, isTraits, rfl⟩ := first
  obtain ⟨structs, isStructs, rfl⟩ := second
  refine ⟨enums, traits, structs, ⟨s.model.sortClasses_perm _, nodup_enums_append wf.toSlotsSound,
    fun acyclic => ?_, isEnums, isTraits, isStructs⟩, rfl⟩
  exact (Model.inClassOrder_sortClasses acyclic).supertypes_first

end Scope

namespace Model

variable {m : Model} {settings : GenerationSettings} {root p : ElementId} {g top : Module}

/-! ## The modules of a tree -/

/-- The module covers the tree of a package: it has the name of the package in snake case, what the
package declares, and for each subpackage in order a module that covers the tree of that one. -/
inductive Covers (m : Model) (settings : GenerationSettings) : ElementId → Module → Prop
  | module {p : ElementId} {g : Module} {classes : List ElementId} {enums : List Enum}
      {traits : List Trait} {structs : List Struct} {nested : List Module} :
      g.name = settings.naming.identifier (m.label p) →
      Scope.Declares ⟨m, settings, some p⟩ p classes enums traits structs →
      g.items = enums.map .enum ++ traits.map .trait ++ structs.map .struct →
      g.nested = nested.map some →
      List.Forall₂ (Covers m settings) (m.members .subpackages p) nested →
      Covers m settings p g

theorem covers_of_module_ok (wf : m.WellFormed) (isPackage : m.isPackage p)
    (done : m.module settings p = .ok g) : m.Covers settings p g := by
  induction p using wf.treeInduction generalizing g with
  | step p ih =>
    obtain ⟨name, made, inner⟩ := of_module_ok wf isPackage done
    obtain ⟨enums, traits, structs, declares, items⟩ :=
      Scope.declares_of_items_ok (s := ⟨m, settings, some p⟩) wf isPackage made
    obtain ⟨nested, modules, same⟩ := exists_of_mapM_map_ok inner
    refine .module name declares items same (forall₂_of_map_eq (fun q held inside done => ?_) modules)
    exact ih q (mem_allMembers.mpr ⟨_, held⟩) (wf.isPackage_of_mem_subpackages held) done

/-! ## How many declarations there are -/

/-- How many declarations are written for an element: one for an enum or a class in the interface,
and one for a concrete class in the implementation. -/
def declarations (m : Model) (settings : GenerationSettings) (x : ElementId) : Nat :=
  (if settings.emit.interfaces ∧ (m.kind? x = some .eEnum ∨ m.kind? x = some .eClass) then 1
    else 0) +
  (if settings.emit.implementations ∧ Scope.isConcrete m x then 1 else 0)

theorem kind?_of_isConcrete {x : ElementId} (concrete : Scope.isConcrete m x) :
    m.kind? x = some .eClass := by
  obtain ⟨c, isClass, -⟩ := Option.any_eq_true _ _ |>.mp concrete
  obtain ⟨b, carried, content⟩ := Option.bind_eq_some_iff.mp isClass
  obtain ⟨e, found, rfl⟩ := Option.map_eq_some_iff.mp carried
  rw [kind?_of_get? found, Element.kind]
  cases same : e.body <;> simp_all [Body.class?, Body.kind]

theorem declarations_eq_zero {x : ElementId} (notEnum : m.kind? x ≠ some .eEnum)
    (notClass : m.kind? x ≠ some .eClass) : m.declarations settings x = 0 := by
  have abstract : ¬ Scope.isConcrete m x := fun concrete => notClass (kind?_of_isConcrete concrete)
  simp [declarations, notEnum, notClass, abstract]

/-- A package is only in the trees of packages. -/
theorem WellFormed.isPackage_of_within (wf : m.WellFormed) {c q : ElementId}
    (within : m.Within c q) (isPackage : m.isPackage q) : m.isPackage c := by
  induction within with
  | self => exact isPackage
  | member _ held ih => exact ih (wf.nested_of_isPackage held isPackage).2

/-- Nothing is declared for what is inside an element that is no package. -/
theorem WellFormed.declarations_inside (wf : m.WellFormed) {c x : ElementId}
    (other : m.isPackage c = false) (within : m.Within c x) (ne : x ≠ c) :
    m.declarations settings x = 0 := by
  cases within with
  | self => exact absurd rfl ne
  | @member slot q _ inside held =>
    obtain ⟨on, fits⟩ := wf.fits held
    have notPackage : m.kind? q ≠ some .ePackage := by
      intro isPackage
      have above := wf.isPackage_of_within inside (by simp [Model.isPackage, isPackage])
      rw [other] at above
      cases above
    obtain ⟨k, isKind, onKind⟩ := Option.any_eq_true _ _ |>.mp on
    obtain ⟨k', isKind', fitsKind⟩ := Option.any_eq_true _ _ |>.mp fits
    rw [isKind] at notPackage
    refine declarations_eq_zero ?_ ?_
    all_goals
      intro known
      rw [known] at isKind'
      cases isKind'
      cases slot <;> first
        | exact absurd fitsKind (by decide)
        | exact notPackage (congrArg some (of_decide_eq_true onKind))

/-- How many declarations are written for the tree of an element. -/
def treeDeclarations (m : Model) (settings : GenerationSettings) (x : ElementId) : Nat :=
  ((m.tree x).map (m.declarations settings)).sum

theorem sum_map_flatMap {α β : Type} (f : β → Nat) (g : α → List β) (l : List α) :
    ((l.flatMap g).map f).sum = (l.map fun a => ((g a).map f).sum).sum := by
  rw [List.map_flatMap, List.flatMap_def, List.sum_flatten, List.map_map]
  rfl

theorem WellFormed.treeDeclarations_eq (wf : m.WellFormed) {e : Element} {x : ElementId}
    (found : m.get? x = some e) :
    m.treeDeclarations settings x =
      m.declarations settings x + ((m.allMembers x).map (m.treeDeclarations settings)).sum := by
  rw [treeDeclarations, wf.tree_eq found, List.map_cons, List.sum_cons, sum_map_flatMap]
  rfl

/-- The tree of an element that is no package has at most the declarations of the element itself. -/
theorem WellFormed.treeDeclarations_other (wf : m.WellFormed) {e : Element} {c : ElementId}
    (found : m.get? c = some e) (other : m.isPackage c = false) :
    m.treeDeclarations settings c = m.declarations settings c := by
  have apart := wf.nodup_tree found
  have inside : ∀ x ∈ m.tree c, m.Within c x := fun x there => (wf.mem_tree found).mp there
  rw [wf.tree_eq found] at apart inside
  rw [List.nodup_cons] at apart
  rw [treeDeclarations, wf.tree_eq found, List.map_cons, List.sum_cons, Nat.add_eq_left]
  refine List.sum_eq_zero_iff_forall_eq_nat.mpr fun n counted => ?_
  obtain ⟨x, there, rfl⟩ := List.mem_map.mp counted
  refine wf.declarations_inside other (inside x (List.mem_cons_of_mem c there)) ?_
  rintro rfl
  exact apart.1 there

/-- The tree of a package has the declarations of its data types and classes, and those of the trees
of its subpackages. -/
theorem WellFormed.treeDeclarations_package (wf : m.WellFormed) (isPackage : m.isPackage p) :
    m.treeDeclarations settings p =
      ((m.members .dataTypes p ++ m.members .classes p).map (m.declarations settings)).sum +
        ((m.members .subpackages p).map (m.treeDeclarations settings)).sum := by
  obtain ⟨e, found⟩ := get?_of_isPackage isPackage
  have known : m.kind? p = some .ePackage := of_decide_eq_true isPackage
  have slots : (Slot.all.filter (·.isOn .ePackage)) =
      [.annotations, .classes, .dataTypes, .subpackages] := by decide
  have none : m.declarations settings p = 0 :=
    declarations_eq_zero (by simp [known]) (by simp [known])
  -- What is no subpackage has nothing below it that calls for a declaration.
  have own (slot : Slot) (ne : slot ≠ .subpackages) :
      (m.members slot p).map (m.treeDeclarations settings) =
        (m.members slot p).map (m.declarations settings) := by
    refine List.map_congr_left fun c held => ?_
    obtain ⟨e', there⟩ := exists_of_parent? (wf.parent held)
    refine wf.treeDeclarations_other there (Bool.eq_false_iff.mpr fun isPackage => ne ?_)
    exact wf.slot_unique held (wf.nested_of_isPackage held isPackage).1
  have notes : ((m.members .annotations p).map (m.declarations settings)).sum = 0 := by
    refine List.sum_eq_zero_iff_forall_eq_nat.mpr fun n counted => ?_
    obtain ⟨c, held, rfl⟩ := List.mem_map.mp counted
    obtain ⟨k, isKind, fits⟩ := Option.any_eq_true _ _ |>.mp (wf.fits held).2
    refine declarations_eq_zero ?_ ?_
    all_goals
      intro known
      rw [known] at isKind
      cases isKind
      exact absurd fits (by decide)
  rw [wf.treeDeclarations_eq found, none, wf.allMembers_eq known, slots]
  simp only [List.flatMap_cons, List.flatMap_nil, List.append_nil, List.map_append, List.sum_append,
    own .annotations (by decide), own .classes (by decide), own .dataTypes (by decide), notes]
  omega

theorem typeCount_eq (g : Module) : g.typeCount = g.items.length + typeCounts g.nested := by
  cases g
  rw [Module.typeCount]

theorem typeCounts_map_some (nested : List Module) :
    typeCounts (nested.map some) = (nested.map Module.typeCount).sum := by
  induction nested with
  | nil => rw [List.map_nil, typeCounts]; rfl
  | cons g rest ih => rw [List.map_cons, typeCounts, ih, List.map_cons, List.sum_cons]

theorem map_eq_of_forall₂ {α β γ : Type} {related : α → β → Prop} {f : α → γ} {g : β → γ}
    {l : List α} {l' : List β} (all : List.Forall₂ related l l')
    (each : ∀ a ∈ l, ∀ b, related a b → g b = f a) : l'.map g = l.map f := by
  induction all with
  | nil => rfl
  | cons first _ ih =>
    rw [List.map_cons, List.map_cons, each _ List.mem_cons_self _ first,
      ih fun a member => each a (List.mem_cons_of_mem _ member)]

theorem sum_map_ite {α : Type} (wanted : Bool) (p : α → Prop) [DecidablePred p] (l : List α) :
    (l.map fun a => if wanted ∧ p a then 1 else 0).sum =
      (if wanted then l.filter p else []).length := by
  cases wanted with
  | false => simp
  | true =>
    induction l with
    | nil => rfl
    | cons a l ih =>
      rw [List.map_cons, List.sum_cons, ih]
      by_cases kept : p a <;> simp [kept, Nat.add_comm]

/-- A package declares what its data types and classes call for. -/
theorem length_of_declares (wf : m.WellFormed) {classes : List ElementId} {enums : List Enum}
    {traits : List Trait} {structs : List Struct}
    (declares : Scope.Declares ⟨m, settings, some p⟩ p classes enums traits structs) :
    enums.length + traits.length + structs.length =
      ((m.members .dataTypes p ++ m.members .classes p).map (m.declarations settings)).sum := by
  -- A data type calls for a declaration if it is an enum, ...
  have ofTypes : ((m.members .dataTypes p).map (m.declarations settings)).sum = enums.length := by
    have each : ∀ d ∈ m.members .dataTypes p, m.declarations settings d =
        if settings.emit.interfaces ∧ m.kind? d = some .eEnum then 1 else 0 := by
      intro d held
      have notClass : m.kind? d ≠ some .eClass := by
        rcases wf.kind?_dataType held with known | known <;> simp [known]
      have abstract : ¬ Scope.isConcrete m d := fun concrete =>
        notClass (kind?_of_isConcrete concrete)
      simp [declarations, notClass, abstract]
    rw [List.map_congr_left each, sum_map_ite, declares.enums]
    split
    · rw [List.length_map]
      rfl
    · rfl
  -- ... a class for a trait, and for a struct as well if it is concrete.
  have ofClasses : ((m.members .classes p).map (m.declarations settings)).sum =
      traits.length + structs.length := by
    have each : ∀ c ∈ m.members .classes p, m.declarations settings c =
        (if settings.emit.interfaces ∧ True then 1 else 0) +
          if settings.emit.implementations ∧ Scope.isConcrete m c then 1 else 0 := by
      intro c held
      simp [declarations, wf.kind?_class held]
    have lengths := congrArg List.length declares.traits
    have lengths' := congrArg List.length declares.structs
    rw [List.length_map] at lengths lengths'
    rw [← (declares.eachClass.map _).sum_nat, List.map_congr_left fun c member =>
      each c (declares.eachClass.mem_iff.mp member), List.sum_map_add, sum_map_ite, sum_map_ite,
      lengths, lengths']
    congr 1
    · split <;> simp
    · split <;> simp
  rw [List.map_append, List.sum_append, ofTypes, ofClasses, Nat.add_assoc]

/-- The types of a module that covers the tree of a package are the enums and classes of the tree. -/
theorem Covers.typeCount_eq (wf : m.WellFormed) (isPackage : m.isPackage p)
    (covers : m.Covers settings p g) : g.typeCount = m.treeDeclarations settings p := by
  induction p using wf.treeInduction generalizing g with
  | step p ih =>
    cases covers with
    | module name declares items nested inner =>
      have below := map_eq_of_forall₂ inner fun q held inside covers =>
        ih q (mem_allMembers.mpr ⟨_, held⟩) (wf.isPackage_of_mem_subpackages held) covers
      have own := length_of_declares wf declares
      rw [typeCount_eq, nested, typeCounts_map_some, below, items,
        wf.treeDeclarations_package isPackage, ← own]
      simp only [List.length_append, List.length_map]

/-! ## Generation for a resolved root -/

theorem isPackage_of_isResolved (resolved : m.isResolved p) : m.isPackage p := by
  obtain ⟨content, isPackage, -⟩ := Option.any_eq_true _ _ |>.mp resolved
  obtain ⟨b, carried, same⟩ := Option.bind_eq_some_iff.mp isPackage
  obtain ⟨e, found, rfl⟩ := Option.map_eq_some_iff.mp carried
  rw [Model.isPackage, kind?_of_get? found, Element.kind]
  cases known : e.body <;> simp_all [Body.package?, Body.kind]

theorem generate_ok_iff {code : GeneratedCode} (resolved : m.isResolved root) :
    m.generate settings root = .ok code ↔
      ∃ top, m.module settings root = .ok top ∧ code = ⟨fileText top, top.typeCount⟩ := by
  have known : m.kind? root = some .ePackage := of_decide_eq_true (isPackage_of_isResolved resolved)
  obtain ⟨e, found, isKind⟩ := get?_of_kind? known
  have run : m.generate settings root = m.module settings root >>= fun top =>
      .ok ⟨fileText top, top.typeCount⟩ := by
    simp only [generate, require, found, demand, isKind, resolved, decide_true, if_true, ok_bind,
      pure, Except.pure]
  rw [run, bind_ok_iff]
  simp only [Except.ok.injEq, eq_comm]

/-- Whatever documents and rounds have made of a model, for a resolved root generation writes a
module for each package of the tree, with the declarations of the package, and counts what is
declared in the tree. If structs are to be written, the features that concrete classes of the tree
inherit must be linked as well; they are when all packages have been resolved. -/
theorem generate_covers (prepared : m.Prepared) (resolved : m.isResolved root)
    (settings : GenerationSettings) :
    ((∀ p, m.isPackage p → m.isResolved p) → m.InheritsLinked root) ∧
      ((settings.emit.implementations → m.InheritsLinked root) →
        ∃ top, m.generate settings root = .ok ⟨fileText top, top.typeCount⟩ ∧
          m.Covers settings root top ∧ top.typeCount = m.treeDeclarations settings root) := by
  have sound := prepared.soundMarks
  have wf := sound.loaded.wellFormed
  refine ⟨sound.inheritsLinked resolved, fun inherited => ?_⟩
  obtain ⟨top, done⟩ : Succeeds (m.module settings root) :=
    succeeds_moduleWithin_of_features settings m.size (sound.linked root resolved) inherited
  have covers := covers_of_module_ok wf (isPackage_of_isResolved resolved) done
  exact ⟨top, (generate_ok_iff resolved).mpr ⟨top, done, rfl⟩, covers,
    covers.typeCount_eq wf (isPackage_of_isResolved resolved)⟩

/-- The model of `twinning` after a round over its root. -/
def twinSettled : Model := (twinning.resolveAll [⟨0⟩]).toOption.elim {} Prod.fst

theorem prepared_twinSettled : twinSettled.Prepared := by
  have built : ({} : Model).build "xsi:type" twinDocument none = .ok (twinning, ⟨0⟩) := rfl
  exact elim_toOption .empty fun _ _ done => .resolved (.document .empty built) done

/-- The tree has an enum and two classes, which makes one enum, two traits and two structs. -/
theorem generate_covers_twinSettled :
    ∃ top, twinSettled.generate {} ⟨0⟩ = .ok ⟨fileText top, 5⟩ ∧
      twinSettled.Covers {} ⟨0⟩ top := by
  obtain ⟨resolved, count, all⟩ : twinSettled.isResolved ⟨0⟩ ∧
      twinSettled.treeDeclarations {} ⟨0⟩ = 5 ∧ ∀ i : Fin twinSettled.size,
        twinSettled.isPackage ⟨i⟩ → twinSettled.isResolved ⟨i⟩ := by decide +kernel
  obtain ⟨linked, generated⟩ := generate_covers prepared_twinSettled resolved {}
  have inherited := linked fun p isPackage => by
    obtain ⟨e, found⟩ := get?_of_isPackage isPackage
    exact all ⟨p.index, lt_size_of_get? found⟩ isPackage
  obtain ⟨top, done, covers, counted⟩ := generated fun _ => inherited
  rw [counted, count] at done
  exact ⟨top, done, covers⟩

/-- The model of `farming` after a round over the root of `herdDocument` only. -/
def herdSettled : Model := (farming.resolveAll [⟨0⟩]).toOption.elim {} Prod.fst

theorem prepared_herdSettled : herdSettled.Prepared := by
  have builtHerd : ({} : Model).build "xsi:type" herdDocument none = .ok (herding, ⟨0⟩) := rfl
  have builtFarm : herding.build "xsi:type" farmDocument none = .ok (farming, ⟨2⟩) := rfl
  have prepared : farming.Prepared := .document (.document .empty builtHerd) builtFarm
  exact elim_toOption .empty fun _ _ done => .resolved prepared done

/-- Among the items of a module there is a struct for each concrete class, if structs are written. -/
theorem Covers.exists_struct (covers : m.Covers settings p g)
    (wanted : settings.emit.implementations) {c : ElementId} (held : c ∈ m.members .classes p)
    (concrete : Scope.isConcrete m c) :
    ∃ struct, .struct struct ∈ g.items ∧
      Scope.structItem ⟨m, settings, some p⟩ c = .ok struct := by
  cases covers with
  | @module _ _ classes _ _ structs _ name declares items nested inner =>
    have results : structs.map .ok = (classes.filter (Scope.isConcrete m)).map
        (Scope.structItem ⟨m, settings, some p⟩) := declares.structs.trans (if_pos wanted)
    have listed : Scope.structItem ⟨m, settings, some p⟩ c ∈ structs.map Except.ok := by
      rw [results]
      exact List.mem_map_of_mem
        (List.mem_filter.mpr ⟨declares.eachClass.mem_iff.mpr held, concrete⟩)
    obtain ⟨struct, there, same⟩ := List.mem_map.mp listed
    refine ⟨struct, ?_, same.symm⟩
    rw [items]
    exact List.mem_append_right _ (List.mem_map_of_mem there)

/-- The package of the herd. -/
def herdScope : Scope := ⟨herdSettled, {}, some ⟨0⟩⟩

/-- The class of a resolved root inherits a reference whose type is still a text. -/
theorem generate_beside_unresolved :
    (∃ total, farming.resolveAll [⟨0⟩] = .ok (herdSettled, total)) ∧ herdSettled.Prepared ∧
      herdSettled.isResolved ⟨0⟩ ∧ ∃ error, herdSettled.generate {} ⟨0⟩ = .error error := by
  obtain ⟨resolved, held, concrete, one, none, known, own, inherited, succeeds, text⟩ :
      herdSettled.isResolved ⟨0⟩ ∧ ⟨1⟩ ∈ herdSettled.members .classes ⟨0⟩ ∧
      Scope.isConcrete herdSettled ⟨1⟩ ∧ herdSettled.superTypes ⟨1⟩ = [⟨3⟩] ∧
      herdSettled.superTypes ⟨3⟩ = [] ∧ ⟨3⟩ ∈ herdSettled.ids ∧
      herdSettled.ownFeatures ⟨1⟩ = [] ∧ herdSettled.ownFeatures ⟨3⟩ = [⟨4⟩] ∧
      (farming.resolveAll [⟨0⟩]).toOption.isSome ∧
      (([⟨4⟩] : List ElementId).foldlM herdScope.addFeature []).toOption.isNone := by
    decide +kernel
  have both := allFeatures_of_one_superType one none known (by decide)
  rw [own, inherited, List.append_nil] at both
  have model : herdScope.model = herdSettled := by rw [herdScope]
  have features : herdScope.model.allFeatures ⟨1⟩ = [⟨4⟩] := by
    rw [model]
    exact both
  obtain ⟨⟨m, total⟩, found⟩ := Option.isSome_iff_exists.mp succeeds
  have same : herdSettled = m := by rw [herdSettled, found]; rfl
  refine ⟨⟨total, same ▸ toOption_eq_some_iff.mp found⟩, prepared_herdSettled, resolved, ?_⟩
  cases done : herdSettled.generate {} ⟨0⟩ with
  | error error => exact ⟨error, rfl⟩
  | ok code =>
    -- The struct of the class would have a field for the reference, and there is no type for it.
    obtain ⟨top, made, -⟩ := (generate_ok_iff resolved).mp done
    have covers := covers_of_module_ok prepared_herdSettled.soundMarks.loaded.wellFormed
      (isPackage_of_isResolved resolved) made
    obtain ⟨struct, -, written⟩ := covers.exists_struct rfl held concrete
    obtain ⟨fields, laid, -⟩ : ∃ fields, herdScope.fields ⟨1⟩ = .ok fields ∧ _ :=
      bind_ok_iff.mp written
    rw [Scope.fields, features] at laid
    rw [laid] at text
    cases text

end Model

end Metamodel
