import Metamodel.Generation.Module
import Metamodel.Proofs.Ownership
import Metamodel.Proofs.Patches

/-!
When generation succeeds.

The generators fail on symbolic links only. They follow the types of the features, operations and
parameters of the package tree and, where structs are written, of the features that its concrete
classes inherit, which may be in other trees. So the tree must be linked, and so must these features
be; they are when the trees of the ancestors are.

Results:
1. `Scope.succeeds_designation`, `Scope.succeeds_traitItem`, `Scope.succeeds_structItem`: what each
   generator needs.
2. `succeeds_moduleWithin_of_features`, `generate_succeeds`: the whole tree of a package.
-/

namespace Metamodel

/-! ## Computations that give a result -/

/-- The computation gives a result. -/
def Succeeds {ε α : Type} (x : Except ε α) : Prop := ∃ a, x = .ok a

namespace Succeeds

variable {ε α β σ : Type}

theorem ok (a : α) : Succeeds (.ok a : Except ε α) := ⟨a, rfl⟩

theorem bind {x : Except ε α} {f : α → Except ε β} (first : Succeeds x)
    (rest : ∀ a, Succeeds (f a)) : Succeeds (x >>= f) := by
  obtain ⟨a, rfl⟩ := first
  exact rest a

theorem map {x : Except ε α} (f : α → β) (first : Succeeds x) : Succeeds (f <$> x) := by
  obtain ⟨a, rfl⟩ := first
  exact ok (f a)

theorem mapM {f : α → Except ε β} {l : List α} (each : ∀ a ∈ l, Succeeds (f a)) :
    Succeeds (l.mapM f) := by
  induction l with
  | nil => exact ok []
  | cons a l ih =>
    rw [List.mapM_cons]
    refine bind (each a List.mem_cons_self) fun b => ?_
    exact bind (ih fun x member => each x (List.mem_cons_of_mem a member)) fun bs => ok (b :: bs)

theorem foldlM {f : σ → α → Except ε σ} {l : List α} (each : ∀ a ∈ l, ∀ s, Succeeds (f s a))
    (s : σ) : Succeeds (l.foldlM f s) := by
  induction l generalizing s with
  | nil => exact ok s
  | cons a l ih =>
    rw [List.foldlM_cons]
    refine bind (each a List.mem_cons_self s) fun next => ?_
    exact ih (fun x member => each x (List.mem_cons_of_mem a member)) next

end Succeeds

namespace Model

/-! ## Linked trees -/

/-- All links of an element and of what it contains are resolved. -/
def Linked (m : Model) (id : ElementId) : Prop :=
  ∀ x, m.Within id x → ∀ field, ∀ link ∈ m.links field x, link.isResolved

/-- With each class in the tree of an element, the trees of its ancestors are linked. -/
def AncestorsLinked (m : Model) (id : ElementId) : Prop :=
  ∀ x, m.Within id x → ∀ ancestor ∈ m.ancestors x, m.Linked ancestor

/-- The features that the concrete classes in the tree of an element have or inherit are linked. -/
def InheritsLinked (m : Model) (id : ElementId) : Prop :=
  ∀ x, m.Within id x → Scope.isConcrete m x → ∀ feature ∈ m.allFeatures x, m.Linked feature

variable {m : Model}

theorem Linked.member {slot : Slot} {id c : ElementId} (linked : m.Linked id)
    (held : c ∈ m.members slot id) : m.Linked c :=
  fun x within => linked x (.trans (.member .self held) within)

theorem Linked.within {id c : ElementId} (linked : m.Linked id) (inside : m.Within id c) :
    m.Linked c :=
  fun x within => linked x (inside.trans within)

theorem InheritsLinked.member {slot : Slot} {id c : ElementId} (inherited : m.InheritsLinked id)
    (held : c ∈ m.members slot id) : m.InheritsLinked c :=
  fun x within => inherited x (.trans (.member .self held) within)

theorem mem_sortedClasses {package cls : ElementId} :
    cls ∈ m.sortedClasses package ↔ cls ∈ m.members .classes package :=
  (sortClasses_perm _).mem_iff

theorem Linked.ownFeature {cls f : ElementId} (linked : m.Linked cls) (own : f ∈ m.ownFeatures cls) :
    m.Linked f := by
  rcases List.mem_append.mp own with held | held
  · exact linked.member held
  · exact linked.member held

/-- A class has its features from its ancestors and from itself. -/
theorem linked_of_mem_allFeatures {cls feature : ElementId} (linked : m.Linked cls)
    (above : ∀ ancestor ∈ m.ancestors cls, m.Linked ancestor)
    (inherited : feature ∈ m.allFeatures cls) : m.Linked feature := by
  obtain ⟨owner, member, own⟩ := List.mem_flatMap.mp inherited
  rcases List.mem_append.mp member with ancestor | self
  · exact (above owner ancestor).ownFeature own
  · exact (List.mem_singleton.mp self ▸ linked).ownFeature own

theorem AncestorsLinked.inheritsLinked {id : ElementId} (above : m.AncestorsLinked id)
    (linked : m.Linked id) : m.InheritsLinked id := by
  intro x within _ feature inherited
  exact linked_of_mem_allFeatures (linked.within within) (above x within) inherited

end Model

/-! ## The generators -/

theorem Link.succeeds_requireTarget {link : Link} (resolved : link.isResolved) :
    Succeeds link.requireTarget := by
  cases link with
  | symbolic uri => cases resolved
  | resolved target => exact .ok target

namespace Scope

open Model

variable (s : Scope)

theorem succeeds_genericClassifier? {generic : ElementId} (linked : s.model.Linked generic) :
    Succeeds (s.genericClassifier? generic) := by
  unfold genericClassifier?
  cases written : ((s.model.body? generic).bind Body.genericType?).bind (·.classifier) with
  | none => exact .ok none
  | some link =>
    obtain ⟨g, isGeneric, classifier⟩ := Option.bind_eq_some_iff.mp written
    obtain ⟨b, carried, content⟩ := Option.bind_eq_some_iff.mp isGeneric
    have here : link ∈ s.model.links .classifier generic := by
      cases b <;> simp_all [Model.links, Body.links, Body.genericType?]
    exact .map some (Link.succeeds_requireTarget (linked generic .self .classifier link here))

/-- The designation of an element is known when the links of the element and of its generic type
are resolved. -/
theorem succeeds_designation {id : ElementId} (linked : s.model.Linked id) :
    Succeeds (s.designation id) := by
  unfold designation
  cases found : s.model.get? id with
  | none => exact .ok Designation.object
  | some e =>
    cases typed : e.body.typed? with
    | none =>
      simp only [typed]
      exact .ok Designation.object
    | some t =>
      simp only [typed]
      refine .map _ ?_
      unfold typeOf?
      cases type : t.eType with
      | some link =>
        have here : link ∈ s.model.links .eType id := by
          simp [links_of_get? found, Body.links, typed, type]
        exact .map some (Link.succeeds_requireTarget (linked id .self .eType link here))
      | none =>
        cases generic : t.genericType with
        | none => exact .ok none
        | some g =>
          have held : g ∈ s.model.members .genericType id := by
            simp only [Model.members, found, Option.map_some, Option.getD_some, Element.members]
            cases b : e.body <;> simp_all [Body.typed?, Body.members]
          exact s.succeeds_genericClassifier? (linked.member held)

theorem succeeds_fieldType {feature : ElementId} (linked : s.model.Linked feature) :
    Succeeds (s.fieldType feature) :=
  .bind (s.succeeds_designation linked) fun _ => .ok _

theorem succeeds_getter {feature : ElementId} (linked : s.model.Linked feature) :
    Succeeds (s.getter feature) :=
  .bind (s.succeeds_fieldType linked) fun _ => .ok _

theorem succeeds_parameter {id : ElementId} (linked : s.model.Linked id) :
    Succeeds (s.parameter id) :=
  .bind (s.succeeds_designation linked) fun _ => .ok _

theorem succeeds_method (cls : ElementId) {operation : ElementId}
    (linked : s.model.Linked operation) (returns : Designation) :
    Succeeds (s.method cls operation returns) :=
  .bind (.mapM fun _ held => s.succeeds_parameter (linked.member held)) fun _ => .ok _

theorem succeeds_methods (cls : ElementId) {operations : List ElementId}
    (linked : ∀ operation ∈ operations, s.model.Linked operation) (taken : List String) :
    Succeeds (s.methods cls taken operations) := by
  induction operations generalizing taken with
  | nil => exact .ok []
  | cons operation rest ih =>
    have later := ih fun other member => linked other (List.mem_cons_of_mem operation member)
    have here := linked operation List.mem_cons_self
    unfold methods
    refine .bind (s.succeeds_designation here) fun returns => ?_
    simp only
    split
    · exact later taken
    · exact .bind (s.succeeds_method cls here returns) fun _ => .bind (later _) fun _ => .ok _

theorem succeeds_traitItem {cls : ElementId} (linked : s.model.Linked cls) :
    Succeeds (s.traitItem cls) := by
  unfold traitItem
  refine .bind (.mapM fun f own => s.succeeds_getter (linked.ownFeature own)) fun getters => ?_
  exact .bind (s.succeeds_methods cls (fun _ held => linked.member held) _) fun _ => .ok _

theorem succeeds_interfaceItemsWithin (depth : Nat) {id : ElementId} (linked : s.model.Linked id) :
    Succeeds (s.interfaceItemsWithin depth id) := by
  induction depth generalizing id with
  | zero => exact .ok []
  | succ depth ih =>
    unfold interfaceItemsWithin
    split
    · exact .ok _
    · exact .bind (s.succeeds_traitItem linked) fun _ => .ok _
    · refine .bind (.mapM fun c member => ih ?_) fun _ => .ok _
      rcases List.mem_append.mp member with held | sorted
      · exact linked.member held
      · exact linked.member (mem_sortedClasses.mp sorted)
    · exact .ok []

theorem succeeds_addFeature {feature : ElementId} (linked : s.model.Linked feature)
    (fields : List FieldLayout) : Succeeds (s.addFeature fields feature) := by
  unfold addFeature
  simp only
  split
  · exact .ok _
  · exact .bind (.bind (s.succeeds_fieldType linked) fun _ => .ok _) fun _ => .ok _

/-- The struct of a class is written when the features of the class and its ancestors are linked. -/
theorem succeeds_structItem_of_features {s : Scope} {cls : ElementId}
    (linked : ∀ feature ∈ s.model.allFeatures cls, s.model.Linked feature) :
    Succeeds (s.structItem cls) :=
  .bind (.foldlM (fun feature member => s.succeeds_addFeature (linked feature member)) [])
    fun _ => .ok _

theorem succeeds_structItem {cls : ElementId} (linked : s.model.Linked cls)
    (above : ∀ ancestor ∈ s.model.ancestors cls, s.model.Linked ancestor) :
    Succeeds (s.structItem cls) :=
  succeeds_structItem_of_features fun _ => linked_of_mem_allFeatures linked above

theorem succeeds_structItemsWithin (depth : Nat) {id : ElementId}
    (inherited : s.model.InheritsLinked id) : Succeeds (s.structItemsWithin depth id) := by
  induction depth generalizing id with
  | zero => exact .ok []
  | succ depth ih =>
    unfold structItemsWithin
    split
    · split
      · next concrete =>
        exact .bind (succeeds_structItem_of_features (inherited id .self concrete)) fun _ => .ok _
      · exact .ok []
    · refine .bind (.mapM fun c sorted => ?_) fun _ => .ok _
      exact ih (inherited.member (mem_sortedClasses.mp sorted))
    · exact .ok []

/-- What is inherited matters only where structs are written. -/
theorem succeeds_items {package : ElementId} (linked : s.model.Linked package)
    (inherited : s.settings.emit.implementations → s.model.InheritsLinked package) :
    Succeeds (s.items package) := by
  have interfaces : Succeeds (s.interfaceItems package) :=
    s.succeeds_interfaceItemsWithin _ linked
  have structs (wanted : s.settings.emit.implementations) : Succeeds (s.structItems package) :=
    s.succeeds_structItemsWithin _ (inherited wanted)
  unfold items
  simp only
  split <;> split
  · next wanted => exact interfaces.bind fun _ => (structs wanted).bind fun _ => .ok _
  · exact interfaces.bind fun _ => .ok _
  · next wanted => exact (structs wanted).bind fun _ => .ok _
  · exact .ok _

theorem succeeds_ownModule {package : ElementId} (linked : s.model.Linked package)
    (inherited : s.settings.emit.implementations → s.model.InheritsLinked package) :
    Succeeds (s.ownModule package) :=
  .bind (s.succeeds_items linked inherited) fun _ => .ok _

end Scope

namespace Model

variable {m : Model}

theorem succeeds_moduleWithin_of_features (settings : GenerationSettings) (depth : Nat)
    {package : ElementId} (linked : m.Linked package)
    (inherited : settings.emit.implementations → m.InheritsLinked package) :
    Succeeds (m.moduleWithin settings depth package) := by
  induction depth generalizing package with
  | zero => exact Scope.succeeds_ownModule ⟨m, settings, some package⟩ linked inherited
  | succ depth ih =>
    refine .bind (Scope.succeeds_ownModule ⟨m, settings, some package⟩ linked inherited) fun own => ?_
    refine .bind (.mapM fun member held => ?_) fun _ => .ok _
    split
    · exact .map some (ih (linked.member held) fun wanted => (inherited wanted).member held)
    · exact .ok none

theorem succeeds_moduleWithin (settings : GenerationSettings) (depth : Nat) {package : ElementId}
    (linked : m.Linked package) (above : m.AncestorsLinked package) :
    Succeeds (m.moduleWithin settings depth package) :=
  succeeds_moduleWithin_of_features settings depth linked fun _ => above.inheritsLinked linked

/-- Generation succeeds for a package that has been resolved, if its tree is linked and so are the
trees of the ancestors of its classes. -/
theorem generate_succeeds (settings : GenerationSettings) {root : ElementId}
    (isPackage : m.isPackage root) (resolved : m.isResolved root) (linked : m.Linked root)
    (above : m.AncestorsLinked root) : Succeeds (m.generate settings root) := by
  have known : m.kind? root = some .ePackage := by simpa [Model.isPackage] using isPackage
  obtain ⟨e, found, isKind⟩ := get?_of_kind? known
  have code := succeeds_moduleWithin settings m.size linked above
  simp only [generate, require, found, demand, isKind, resolved, decide_true, if_true, ok_bind]
  exact .bind code fun _ => .ok _

end Model

end Metamodel
