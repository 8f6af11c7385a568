import Metamodel.Proofs.Supertypes

/-!
The order of classes.

Classes are compared by reachability first, then by the length of their longest chain of supertypes,
their names and their ids. The sort only looks at the last three. Both agree where no class is above
itself: a chain that starts at a class is longer than any that starts at one of its supertypes, also
where the supertypes in between are not among the classes that are sorted.

Results:
1. `Graph.longestPath_map`: the longest path does not depend on what the nodes are called.
2. `superChain_lt_of_above`: chains grow from supertypes to subtypes.
3. `sortClasses_order`: the order that classes are sorted into, and what it does not depend on.
-/

namespace Metamodel

open Relation (ReflTransGen TransGen)

/-! ## Longest paths -/

theorem max?_getD_mono {l l' : List Nat} (subset : l ⊆ l') : l.max?.getD 0 ≤ l'.max?.getD 0 := by
  cases greatest : l.max? with
  | none => exact Nat.zero_le _
  | some n => exact List.le_max?_getD_of_mem (subset (List.max?_mem greatest))

namespace Graph

variable {α β : Type} [DecidableEq α] [DecidableEq β] {next : α → List α} {unseen : List α} {a : α}

theorem longestPath_of_mem (new : a ∈ unseen) : longestPath next unseen a =
    1 + (((next a).map fun b => longestPath next (unseen.erase a) b).max?.getD 0) := by
  rw [longestPath, if_pos new]

theorem longestPath_of_not_mem (seen : a ∉ unseen) : longestPath next unseen a = 0 := by
  rw [longestPath, if_neg seen]

/-- Nodes that are called something else, and have their successors in another order, are on longest
paths of the same length. Only what can be reached has to correspond. -/
theorem longestPath_map (rename : α → β) {next' : β → List β} {unseen' : List β} {P : α → Prop}
    (closed : ∀ a, P a → ∀ b ∈ next a, P b)
    (injective : ∀ a b, P a → P b → rename a = rename b → a = b)
    (edges : ∀ a, P a → ∀ y, y ∈ next' (rename a) ↔ y ∈ (next a).map rename)
    (nodup : unseen.Nodup) (nodup' : unseen'.Nodup)
    (same : ∀ a, P a → (rename a ∈ unseen' ↔ a ∈ unseen)) (here : P a) :
    longestPath next' unseen' (rename a) = longestPath next unseen a := by
  fun_induction longestPath next unseen a generalizing unseen' with
  | case1 unseen a new ih =>
    rw [longestPath_of_mem ((same a here).mpr new)]
    -- Removing `a` on one side is removing what it is called on the other.
    have below (b : α) (edge : b ∈ next a) :
        longestPath next' (unseen'.erase (rename a)) (rename b) =
          longestPath next (unseen.erase a) b := by
      refine ih b (nodup.erase a) (nodup'.erase _) (fun c there => ?_) (closed a here b edge)
      rw [nodup.mem_erase_iff, nodup'.mem_erase_iff, same c there]
      exact and_congr_left fun _ => not_congr ⟨injective c a there here, congrArg rename⟩
    have values (n : Nat) :
        n ∈ (next' (rename a)).map (longestPath next' (unseen'.erase (rename a))) ↔
          n ∈ (next a).map (longestPath next (unseen.erase a)) := by
      simp only [List.mem_map, edges a here]
      constructor
      · rintro ⟨_, ⟨b, edge, rfl⟩, rfl⟩
        exact ⟨b, edge, (below b edge).symm⟩
      · rintro ⟨b, edge, rfl⟩
        exact ⟨rename b, ⟨b, edge, rfl⟩, below b edge⟩
    refine congrArg (1 + ·) (Nat.le_antisymm ?_ ?_)
    · exact max?_getD_mono fun n => (values n).mp
    · exact max?_getD_mono fun n => (values n).mpr
  | case2 unseen a seen => exact longestPath_of_not_mem fun new => seen ((same a here).mp new)

/-- Nodes that a path cannot come to do not matter for its length. -/
theorem longestPath_erase (nodup : unseen.Nodup) {b : α} (apart : ¬ Path next b a) :
    longestPath next (unseen.erase a) b = longestPath next unseen b := by
  refine longestPath_map id (P := Path next b) (fun x path y edge => path.tail edge)
    (fun _ _ _ _ same => same) (fun _ _ _ => by simp) nodup (nodup.erase a) (fun x path => ?_) .refl
  refine List.mem_erase_of_ne fun same => apart ?_
  exact same ▸ path

/-- Where a node is not on a circle, the paths of its successors are shorter. -/
theorem longestPath_lt (nodup : unseen.Nodup) (new : a ∈ unseen) {b : α} (edge : b ∈ next a)
    (apart : ¬ Path next b a) : longestPath next unseen b < longestPath next unseen a := by
  have listed : longestPath next (unseen.erase a) b ∈
      (next a).map fun b => longestPath next (unseen.erase a) b := List.mem_map_of_mem edge
  have bound := List.le_max?_getD_of_mem (k := 0) listed
  rw [longestPath_of_mem new, ← longestPath_erase nodup apart]
  omega

end Graph

/-! ## Keys -/

namespace Model

namespace ClassKey

theorem compare_eq_compareLex : compare = compareLex (compareOn chain)
    (compareLex (compareOn name) (compareOn fun key => key.id.index)) := rfl

instance : Std.TransCmp compare := by
  rw [compare_eq_compareLex]
  infer_instance

instance : Std.LawfulEqCmp compare where
  compare_self := by
    rw [compare_eq_compareLex]
    exact Std.ReflCmp.compare_self
  eq_of_compare {a b} same := by
    simp only [compare, Ordering.then_eq_eq, Std.compare_eq_iff_eq] at same
    obtain ⟨chain, name, index⟩ := same
    obtain ⟨_, _, ⟨_⟩⟩ := a
    obtain ⟨_, _, ⟨_⟩⟩ := b
    simp_all

theorem compare_of_chain_lt {a b : ClassKey} (less : a.chain < b.chain) : a.compare b = .lt := by
  rw [compare, Nat.compare_eq_lt.mpr less]
  rfl

/-- Keys in order, without their ids. -/
def nameLE (a b : Nat × String) : Prop := a.1 < b.1 ∨ a.1 = b.1 ∧ (Ord.compare a.2 b.2).isLE

theorem nameLE_antisymm {a b : Nat × String} (ab : nameLE a b) (ba : nameLE b a) : a = b := by
  unfold nameLE at ab ba
  have chain : a.1 = b.1 := by omega
  have names : Ord.compare a.2 b.2 = .eq :=
    Std.OrientedCmp.isLE_antisymm (by grind) (by grind)
  exact Prod.ext chain (Std.LawfulEqCmp.eq_of_compare names)

theorem nameLE_of_le {a b : ClassKey} (le : (a.compare b).isLE) :
    nameLE (a.chain, a.name) (b.chain, b.name) := by
  unfold compare at le
  rcases Ordering.isLE_then_iff_or.mp le with less | ⟨same, rest⟩
  · exact .inl (Nat.compare_eq_lt.mp less)
  · refine .inr ⟨Nat.compare_eq_eq.mp same, ?_⟩
    rcases Ordering.isLE_then_iff_or.mp rest with less | ⟨same, -⟩
    · exact less ▸ rfl
    · exact same ▸ rfl

end ClassKey

/-! ## Chains -/

/-- The element is one of the classes or above one of them. -/
def Above (m : Model) (classes : List ElementId) (x : ElementId) : Prop :=
  ∃ c ∈ classes, ReflTransGen m.Inherits c x

/-- None of the classes and of what is above them is above itself. -/
def AcyclicAbove (m : Model) (classes : List ElementId) : Prop :=
  ∀ x, m.Above classes x → ¬ TransGen m.Inherits x x

variable {m m' : Model} {classes : List ElementId} {a b sub sup : ElementId}

theorem above_of_mem (member : a ∈ classes) : m.Above classes a := ⟨a, member, .refl⟩

theorem Above.trans (above : m.Above classes a) (path : ReflTransGen m.Inherits a b) :
    m.Above classes b := by
  obtain ⟨c, member, start⟩ := above
  exact ⟨c, member, start.trans path⟩

/-- Where every supertype has a smaller rank, nothing is above itself. -/
theorem acyclicAbove_of_rank (rank : ElementId → Nat)
    (falls : ∀ sub sup, m.Inherits sub sup → rank sup < rank sub) (classes : List ElementId) :
    m.AcyclicAbove classes := by
  have less {a b : ElementId} (above : TransGen m.Inherits a b) : rank b < rank a := by
    induction above with
    | single step => exact falls _ _ step
    | tail _ step ih => exact Nat.lt_trans (falls _ _ step) ih
  exact fun x _ loop => Nat.lt_irrefl _ (less loop)

theorem superChain_lt (step : m.Inherits sub sup) (noLoop : ¬ TransGen m.Inherits sub sub) :
    m.superChain sup < m.superChain sub := by
  refine Graph.longestPath_lt m.nodup_ids step.mem_ids (mem_superTypes.mpr step) fun path => ?_
  rw [path_superTypes] at path
  exact noLoop (.head' step path)

/-- Chains grow from supertypes to subtypes, whatever is in between. -/
theorem superChain_lt_of_above (acyclic : m.AcyclicAbove classes) (start : m.Above classes sub)
    (above : TransGen m.Inherits sub sup) : m.superChain sup < m.superChain sub := by
  induction above with
  | single step => exact superChain_lt step (acyclic sub start)
  | tail path step ih =>
    have noLoop := acyclic _ (start.trans path.to_reflTransGen)
    exact Nat.lt_trans (superChain_lt step noLoop) ih

/-! ## Comparing and sorting -/

/-- Where nothing is above itself, classes compare as their keys do. -/
theorem compareClasses_eq (acyclic : m.AcyclicAbove classes) (hereA : m.Above classes a)
    (hereB : m.Above classes b) :
    m.compareClasses a b = (m.classKey a).compare (m.classKey b) := by
  unfold compareClasses
  split
  · next same =>
    subst same
    exact Std.ReflCmp.compare_self.symm
  · next ne =>
    split
    · next assignable =>
      have above := ((isAssignable_iff.mp assignable).resolve_left ne).2
      have less := superChain_lt_of_above acyclic hereB above
      exact (ClassKey.compare_of_chain_lt less).symm
    · split
      · next assignable =>
        have above := ((isAssignable_iff.mp assignable).resolve_left (Ne.symm ne)).2
        have less := superChain_lt_of_above acyclic hereA above
        exact (Std.OrientedCmp.gt_iff_lt.mpr (ClassKey.compare_of_chain_lt less)).symm
      · rfl

/-- Classes are sorted by their keys. -/
theorem pairwise_sortClasses (m : Model) (classes : List ElementId) :
    (m.sortClasses classes).Pairwise fun a b =>
      ((m.classKey a).compare (m.classKey b)).isLE := by
  have sorted : ((classes.map m.classKey).mergeSort ClassKey.le).Pairwise
      fun k l => (k.compare l).isLE := by
    refine List.pairwise_mergeSort (fun k l n kl ln => ?_) (fun k l => ?_) _
    · exact Std.TransCmp.isLE_trans kl ln
    · have swapped : l.compare k = (k.compare l).swap := Std.OrientedCmp.eq_swap
      rw [swapped]
      cases k.compare l <;> rfl
  refine List.pairwise_map.mpr (sorted.imp_of_mem fun {k l} memberK memberL le => ?_)
  -- Every key that is sorted is the key of the class that it names.
  have own {k : ClassKey} (member : k ∈ (classes.map m.classKey).mergeSort ClassKey.le) :
      m.classKey k.id = k := by
    obtain ⟨c, -, rfl⟩ := List.mem_map.mp (List.mem_mergeSort.mp member)
    rfl
  rw [own memberK, own memberL]
  exact le

/-- A list of classes in class order. -/
structure InClassOrder (m : Model) (classes sorted : List ElementId) : Prop where
  perm : sorted.Perm classes
  /-- No class stands before one that is above it. -/
  supertypes_first : sorted.Pairwise fun a b => ¬ TransGen m.Inherits a b
  increasing : sorted.Pairwise fun a b => a ≠ b → m.compareClasses a b = .lt

/-- A comparison is a strict total order of some classes. -/
structure StrictlyOrders (compare : ElementId → ElementId → Ordering)
    (classes : List ElementId) : Prop where
  eq_iff : ∀ a ∈ classes, ∀ b ∈ classes, compare a b = .eq ↔ a = b
  swap : ∀ a ∈ classes, ∀ b ∈ classes, compare b a = (compare a b).swap
  trans : ∀ a ∈ classes, ∀ b ∈ classes, ∀ c ∈ classes,
    compare a b = .lt → compare b c = .lt → compare a c = .lt

theorem inClassOrder_sortClasses (acyclic : m.AcyclicAbove classes) :
    m.InClassOrder classes (m.sortClasses classes) := by
  have perm := m.sortClasses_perm classes
  refine ⟨perm, ?supertypes_first, ?increasing⟩
  all_goals
    refine (m.pairwise_sortClasses classes).imp_of_mem fun {a b} memberA memberB le => ?_
    have hereA : m.Above classes a := above_of_mem (perm.mem_iff.mp memberA)
    have hereB : m.Above classes b := above_of_mem (perm.mem_iff.mp memberB)
  case supertypes_first =>
    intro above
    have less : (m.classKey b).compare (m.classKey a) = .lt :=
      ClassKey.compare_of_chain_lt (superChain_lt_of_above acyclic hereA above)
    rw [Std.OrientedCmp.gt_iff_lt.mpr less] at le
    cases le
  case increasing =>
    intro ne
    rw [compareClasses_eq acyclic hereA hereB]
    cases compared : (m.classKey a).compare (m.classKey b) with
    | lt => rfl
    | eq => exact absurd (congrArg ClassKey.id (Std.LawfulEqCmp.eq_of_compare compared)) ne
    | gt =>
      rw [compared] at le
      cases le

theorem strictlyOrders_compareClasses (acyclic : m.AcyclicAbove classes) :
    StrictlyOrders m.compareClasses classes := by
  have compared {a b : ElementId} (memberA : a ∈ classes) (memberB : b ∈ classes) :
      m.compareClasses a b = (m.classKey a).compare (m.classKey b) :=
    compareClasses_eq acyclic (above_of_mem memberA) (above_of_mem memberB)
  refine ⟨fun a hereA b hereB => ?_, fun a hereA b hereB => ?_, fun a hereA b hereB c hereC => ?_⟩
  · rw [compared hereA hereB]
    constructor
    · exact fun same => congrArg ClassKey.id (Std.LawfulEqCmp.eq_of_compare same)
    · rintro rfl
      exact Std.ReflCmp.compare_self
  · rw [compared hereA hereB, compared hereB hereA]
    exact Std.OrientedCmp.eq_swap
  · rw [compared hereA hereB, compared hereB hereC, compared hereA hereC]
    exact Std.TransCmp.lt_trans

/-! ## Other ids -/

/-- Two lists of classes in two models are the same hierarchy: under other ids, in another order, and
with the supertypes of each class in another order. -/
structure Corresponds (m m' : Model) (rename : ElementId → ElementId)
    (classes classes' : List ElementId) : Prop where
  perm : classes'.Perm (classes.map rename)
  label : ∀ c ∈ classes, m'.label (rename c) = m.label c
  injective : ∀ x y, m.Above classes x → m.Above classes y → rename x = rename y → x = y
  known : ∀ x, m.Above classes x → (rename x ∈ m'.ids ↔ x ∈ m.ids)
  inherits : ∀ x, m.Above classes x → ∀ y,
    m'.Inherits (rename x) y ↔ ∃ sup, m.Inherits x sup ∧ rename sup = y

theorem Corresponds.superChain {rename : ElementId → ElementId} {classes' : List ElementId}
    (same : Corresponds m m' rename classes classes') (here : m.Above classes a) :
    m'.superChain (rename a) = m.superChain a := by
  refine Graph.longestPath_map rename (P := m.Above classes) (fun x above sup edge => ?_) same.injective
    (fun x above y => ?_) m.nodup_ids m'.nodup_ids same.known here
  · exact above.trans (.single (mem_superTypes.mp edge))
  · rw [mem_superTypes, same.inherits x above, List.mem_map]
    simp only [mem_superTypes]

/-- The names of sorted classes with the lengths of their chains only depend on which names and
chains there are. -/
theorem map_sortClasses_eq {classes' : List ElementId}
    (perm : (classes'.map fun c => (m'.superChain c, m'.label c)).Perm
      (classes.map fun c => (m.superChain c, m.label c))) :
    (m'.sortClasses classes').map (fun c => (m'.superChain c, m'.label c)) =
      (m.sortClasses classes).map fun c => (m.superChain c, m.label c) := by
  have sorted (m : Model) (classes : List ElementId) :
      ((m.sortClasses classes).map fun c => (m.superChain c, m.label c)).Pairwise
        ClassKey.nameLE :=
    List.pairwise_map.mpr ((m.pairwise_sortClasses classes).imp ClassKey.nameLE_of_le)
  refine List.Perm.eq_of_pairwise (fun _ _ _ _ => ClassKey.nameLE_antisymm)
    (sorted m' classes') (sorted m classes) ?_
  exact ((m'.sortClasses_perm classes').map _).trans
    (perm.trans ((m.sortClasses_perm classes).map _).symm)

theorem Corresponds.map_label_sortClasses {rename : ElementId → ElementId}
    {classes' : List ElementId} (same : Corresponds m m' rename classes classes') :
    (m'.sortClasses classes').map m'.label = (m.sortClasses classes).map m.label := by
  have keys : (classes'.map fun c => (m'.superChain c, m'.label c)).Perm
      (classes.map fun c => (m.superChain c, m.label c)) := by
    refine (same.perm.map _).trans (.of_eq ?_)
    rw [List.map_map]
    refine List.map_congr_left fun c member => ?_
    rw [Function.comp_apply, same.superChain (above_of_mem member), same.label c member]
  have names := congrArg (List.map Prod.snd) (map_sortClasses_eq keys)
  simpa only [List.map_map, Function.comp_def] using names

/-- Where nothing is above itself, classes are sorted with all their supertypes in front, and in the
order that comparing them gives, which is total. The names of the classes of a package come in the
same order whatever ids the classes have and in whatever order they were added. -/
theorem sortClasses_order (m : Model) :
    (∀ classes, m.AcyclicAbove classes →
      m.InClassOrder classes (m.sortClasses classes) ∧ StrictlyOrders m.compareClasses classes) ∧
    (∀ package, m.AcyclicAbove (m.members .classes package) →
      m.InClassOrder (m.members .classes package) (m.sortedClasses package)) ∧
    ∀ m' package package' rename,
      Corresponds m m' rename (m.members .classes package) (m'.members .classes package') →
        (m'.sortedClasses package').map m'.label = (m.sortedClasses package).map m.label := by
  refine ⟨fun classes acyclic => ?_, fun package acyclic => ?_, fun m' package package' rename => ?_⟩
  · exact ⟨inClassOrder_sortClasses acyclic, strictlyOrders_compareClasses acyclic⟩
  · exact inClassOrder_sortClasses acyclic
  · exact Corresponds.map_label_sortClasses

/-! ## A diamond -/

/-- A run of calls, after which some classes get supertypes. -/
def runInheriting (calls : List Call) (hierarchy : List (ElementId × List ElementId)) : Model :=
  hierarchy.foldl (fun m (sub, sups) => m.setLinks .superTypes sub (sups.map .resolved)) (run calls)

/-- A package with a class, two subclasses of it, and a common subclass of these. -/
def shapes : Model :=
  runInheriting
    [.create .ePackage (some "shapes"), .create .eClass (some "Shape"),
      .create .eClass (some "Round"), .create .eClass (some "Flat"), .create .eClass (some "Disc"),
      .add .classes ⟨0⟩ ⟨1⟩, .add .classes ⟨0⟩ ⟨2⟩, .add .classes ⟨0⟩ ⟨3⟩, .add .classes ⟨0⟩ ⟨4⟩,
      .create .eAttribute (some "area"), .create .eAttribute (some "radius"),
      .create .eReference (some "centre"),
      .add .attributes ⟨1⟩ ⟨5⟩, .add .attributes ⟨2⟩ ⟨6⟩, .add .references ⟨4⟩ ⟨7⟩]
    [(⟨2⟩, [⟨1⟩]), (⟨3⟩, [⟨1⟩]), (⟨4⟩, [⟨2⟩, ⟨3⟩])]

/-- These classes, created in another order and added in yet another one. -/
def turned : Model :=
  runInheriting
    [.create .eClass (some "Disc"), .create .eClass (some "Flat"),
      .create .ePackage (some "shapes"), .create .eClass (some "Shape"),
      .create .eClass (some "Round"),
      .add .classes ⟨2⟩ ⟨1⟩, .add .classes ⟨2⟩ ⟨4⟩, .add .classes ⟨2⟩ ⟨0⟩, .add .classes ⟨2⟩ ⟨3⟩]
    [(⟨0⟩, [⟨1⟩, ⟨4⟩]), (⟨1⟩, [⟨3⟩]), (⟨4⟩, [⟨3⟩])]

/-- The id in `turned` of a class of `shapes`. -/
def turn (id : ElementId) : ElementId :=
  match id.index with
  | 1 => ⟨3⟩
  | 2 => ⟨4⟩
  | 3 => ⟨1⟩
  | _ => ⟨0⟩

theorem acyclicAbove_shapes (classes : List ElementId) : shapes.AcyclicAbove classes := by
  have falls : ∀ sub ∈ shapes.ids, ∀ sup ∈ shapes.superTypes sub, sup.index < sub.index := by
    decide +kernel
  exact acyclicAbove_of_rank ElementId.index
    (fun sub sup step => falls sub step.mem_ids sup (mem_superTypes.mpr step)) classes

theorem corresponds_turned : Corresponds shapes turned turn (shapes.members .classes ⟨0⟩)
    (turned.members .classes ⟨2⟩) := by
  obtain ⟨closed, perm, label, injective, known, inherits⟩ :
      (∀ x ∈ shapes.members .classes ⟨0⟩, ∀ sup ∈ shapes.superTypes x,
        sup ∈ shapes.members .classes ⟨0⟩) ∧
      (turned.members .classes ⟨2⟩).Perm ((shapes.members .classes ⟨0⟩).map turn) ∧
      (∀ x ∈ shapes.members .classes ⟨0⟩, turned.label (turn x) = shapes.label x) ∧
      (∀ x ∈ shapes.members .classes ⟨0⟩, ∀ y ∈ shapes.members .classes ⟨0⟩,
        turn x = turn y → x = y) ∧
      (∀ x ∈ shapes.members .classes ⟨0⟩, (turn x ∈ turned.ids ↔ x ∈ shapes.ids)) ∧
      ∀ x ∈ shapes.members .classes ⟨0⟩,
        (turned.superTypes (turn x)).Perm ((shapes.superTypes x).map turn) := by
    decide +kernel
  have inside {x : ElementId} (above : shapes.Above (shapes.members .classes ⟨0⟩) x) :
      x ∈ shapes.members .classes ⟨0⟩ := by
    obtain ⟨c, member, path⟩ := above
    induction path with
    | refl => exact member
    | tail _ step ih => exact closed _ ih _ (mem_superTypes.mpr step)
  refine ⟨perm, label, fun x y hereX hereY => injective x (inside hereX) y (inside hereY),
    fun x here => known x (inside here), fun x here y => ?_⟩
  rw [← mem_superTypes, (inherits x (inside here)).mem_iff, List.mem_map]
  simp only [mem_superTypes]

/-- The diamond is sorted into class order, and its classes come in the same order when they have been
created and added in another one. -/
theorem sortClasses_order_shapes :
    shapes.members .classes ⟨0⟩ = [⟨1⟩, ⟨2⟩, ⟨3⟩, ⟨4⟩] ∧
      shapes.InClassOrder [⟨1⟩, ⟨2⟩, ⟨3⟩, ⟨4⟩] (shapes.sortedClasses ⟨0⟩) ∧
      StrictlyOrders shapes.compareClasses [⟨1⟩, ⟨2⟩, ⟨3⟩, ⟨4⟩] ∧
      (turned.sortedClasses ⟨2⟩).map turned.label =
        (shapes.sortedClasses ⟨0⟩).map shapes.label := by
  have classes : shapes.members .classes ⟨0⟩ = [⟨1⟩, ⟨2⟩, ⟨3⟩, ⟨4⟩] := by decide +kernel
  obtain ⟨sort, package, names⟩ := sortClasses_order shapes
  have ordered := package ⟨0⟩ (acyclicAbove_shapes _)
  rw [classes] at ordered
  exact ⟨classes, ordered, (sort _ (acyclicAbove_shapes _)).2,
    names turned ⟨0⟩ ⟨2⟩ turn corresponds_turned⟩

end Model

end Metamodel
