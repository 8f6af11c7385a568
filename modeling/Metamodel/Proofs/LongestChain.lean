import Mathlib.Order.Bounds.Defs
import Metamodel.Proofs.ClassOrder

/-!
The longest chain of supertypes above a class.

The length is found by a search that goes from a class to its supertypes and never enters an element
that is on its path. On a graph with circles that counts the elements of a longest simple path: no
simple path is longer, since the search may go along it, and the search itself goes along one.

The set of the elements on the path may be kept in one place. Each call enters its element there
and takes it out again, so the calls for the supertypes of one class all find the set as the first
of them did. The set grows with the nesting of calls, which is what ends the search.

Results:
1. `Graph.isGreatest_longestPath`: a longest simple path on any graph.
2. `Graph.run_searchPath`: the search with one set leaves the set as it was.
3. `superChain_exact`: the number of a class, on circles and where there are none.
-/

namespace Metamodel

open Relation (ReflTransGen TransGen)

namespace Graph

variable {α : Type} [DecidableEq α] {next : α → List α} {nodes path rest : List α} {a b : α}

/-! ## Simple paths -/

/-- A path from a node along edges, through listed nodes and without a repetition. -/
structure SimplePath (next : α → List α) (nodes : List α) (a : α) (path : List α) : Prop where
  starts : path.head? = some a
  follows : path.IsChain fun x y => y ∈ next x
  nodup : path.Nodup
  listed : path ⊆ nodes

/-- A simple path goes on with one that stays clear of where it started. -/
theorem simplePath_cons_iff (nodup : nodes.Nodup) : SimplePath next nodes a (b :: rest) ↔
    b = a ∧ a ∈ nodes ∧
      (rest = [] ∨ ∃ c ∈ next a, SimplePath next (nodes.erase a) c rest) := by
  constructor
  · rintro ⟨starts, follows, distinct, listed⟩
    obtain rfl : b = a := by simpa using starts
    obtain ⟨new, distinct⟩ := List.nodup_cons.mp distinct
    refine ⟨rfl, listed List.mem_cons_self, ?_⟩
    cases rest with
    | nil => exact .inl rfl
    | cons c rest =>
      obtain ⟨edge, follows⟩ := List.isChain_cons_cons.mp follows
      refine .inr ⟨c, edge, rfl, follows, distinct, fun x here => ?_⟩
      refine nodup.mem_erase_iff.mpr ⟨?_, listed (List.mem_cons_of_mem b here)⟩
      rintro rfl
      exact new here
  · rintro ⟨rfl, known, rfl | ⟨c, edge, starts, follows, distinct, listed⟩⟩
    · exact ⟨rfl, .singleton b, List.nodup_singleton b, by simpa using known⟩
    · have new : b ∉ rest := fun here => nodup.not_mem_erase (listed here)
      refine ⟨rfl, ?_, List.nodup_cons.mpr ⟨new, distinct⟩, ?_⟩
      · cases rest with
        | nil => exact .singleton b
        | cons d rest =>
          obtain rfl : d = c := by simpa using starts
          exact List.isChain_cons_cons.mpr ⟨edge, follows⟩
      · exact List.cons_subset.mpr ⟨known, fun x here => List.mem_of_mem_erase (listed here)⟩

theorem SimplePath.length_le (nodup : nodes.Nodup) (simple : SimplePath next nodes a path) :
    path.length ≤ longestPath next nodes a := by
  induction path generalizing nodes a with
  | nil => exact Nat.zero_le _
  | cons b rest ih =>
    obtain ⟨rfl, known, rfl | ⟨c, edge, onwards⟩⟩ := (simplePath_cons_iff nodup).mp simple
    · rw [longestPath_of_mem known]
      exact Nat.le_add_right 1 _
    · have here : longestPath next (nodes.erase b) c ∈
          (next b).map fun d => longestPath next (nodes.erase b) d := List.mem_map_of_mem edge
      have least := List.le_max?_getD_of_mem (k := 0) here
      have behind := ih (nodup.erase b) onwards
      rw [longestPath_of_mem known, List.length_cons]
      omega

theorem exists_simplePath (nodup : nodes.Nodup) (known : a ∈ nodes) :
    ∃ path, SimplePath next nodes a path ∧ path.length = longestPath next nodes a := by
  fun_induction longestPath next nodes a with
  | case2 nodes a unknown => exact absurd known unknown
  | case1 nodes a known ih =>
    cases longest : ((next a).map fun b => longestPath next (nodes.erase a) b).max? with
    | none => exact ⟨[a], (simplePath_cons_iff nodup).mpr ⟨rfl, known, .inl rfl⟩, rfl⟩
    | some n =>
      obtain ⟨b, edge, length⟩ := List.mem_map.mp (List.max?_mem longest)
      by_cases inside : b ∈ nodes.erase a
      · obtain ⟨rest, simple, same⟩ := ih b (nodup.erase a) inside
        refine ⟨a :: rest, (simplePath_cons_iff nodup).mpr ⟨rfl, known, .inr ⟨b, edge, simple⟩⟩, ?_⟩
        rw [List.length_cons, same, length, Option.getD_some, Nat.add_comm]
      · -- All that follows is on the path, so the path ends here.
        rw [longestPath_of_not_mem inside] at length
        exact ⟨[a], (simplePath_cons_iff nodup).mpr ⟨rfl, known, .inl rfl⟩, by simp [← length]⟩

theorem isGreatest_longestPath (nodup : nodes.Nodup) (known : a ∈ nodes) :
    IsGreatest {n | ∃ path, SimplePath next nodes a path ∧ path.length = n}
      (longestPath next nodes a) := by
  refine ⟨exists_simplePath nodup known, ?_⟩
  rintro n ⟨path, simple, rfl⟩
  exact simple.length_le nodup

/-! ## One set for all calls -/

/-- The length of a longest path, found with one set of the nodes that are on the path. A call that
would be nested deeper than `depth` has no result. -/
def searchPath (next : α → List α) (nodes : List α) : Nat → α → StateT (List α) Option Nat
  | 0, _ => failure
  | depth + 1, a => do
    let onPath ← get
    if a ∈ onPath ∨ a ∉ nodes then return 0
    set (a :: onPath)
    let lengths ← (next a).mapM (searchPath next nodes depth)
    modify (·.erase a)
    return lengths.max?.getD 0 + 1

omit [DecidableEq α] in
/-- Calls that leave a state as it was, one after the other. -/
theorem run_mapM_of_kept {σ β : Type} {f : α → StateT σ Option β} {g : α → β} {s : σ} {l : List α}
    (kept : ∀ a ∈ l, (f a).run s = some (g a, s)) : (l.mapM f).run s = some (l.map g, s) := by
  induction l with
  | nil => rfl
  | cons a l ih =>
    rw [List.mapM_cons, StateT.run_bind, kept a List.mem_cons_self]
    simp [ih fun b later => kept b (List.mem_cons_of_mem a later)]

/-- The nodes that are not on the path are fewer by the one that is entered. -/
theorem filter_not_mem_cons (nodup : nodes.Nodup) (a : α) (onPath : List α) :
    nodes.filter (· ∉ a :: onPath) = (nodes.filter (· ∉ onPath)).erase a := by
  rw [(nodup.filter _).erase_eq_filter, List.filter_filter]
  refine List.filter_congr fun x _ => ?_
  by_cases same : x = a <;> simp [same]

/-- The search gives the length of a longest path through nodes that are not on the path yet, and
the set as it found it. It nests no deeper than there are such nodes. -/
theorem run_searchPath (nodup : nodes.Nodup) {depth : Nat} {onPath : List α}
    (enough : (nodes.filter (· ∉ onPath)).length < depth) (a : α) :
    (searchPath next nodes depth a).run onPath =
      some (longestPath next (nodes.filter (· ∉ onPath)) a, onPath) := by
  -- Each call puts one more node on the path, so the bound on what is left falls with the depth.
  induction depth generalizing onPath a with
  | zero => exact absurd enough (Nat.not_lt_zero _)
  | succ depth ih =>
    by_cases new : a ∈ nodes.filter (· ∉ onPath)
    · have goesOn : ¬ (a ∈ onPath ∨ a ∉ nodes) := by
        simp only [List.mem_filter, decide_eq_true_eq] at new
        tauto
      have fewer := length_erase_lt new
      rw [← filter_not_mem_cons nodup] at fewer
      have each (b : α) : (searchPath next nodes depth b).run (a :: onPath) =
          some (longestPath next (nodes.filter (· ∉ a :: onPath)) b, a :: onPath) :=
        ih (by omega) b
      have calls := run_mapM_of_kept (l := next a) (s := a :: onPath) fun b _ => each b
      rw [longestPath_of_mem new, ← filter_not_mem_cons nodup, Nat.add_comm 1]
      simp [searchPath, goesOn, calls]
    · have stops : a ∈ onPath ∨ a ∉ nodes := by
        simp only [List.mem_filter, decide_eq_true_eq] at new
        tauto
      rw [longestPath_of_not_mem new]
      simp [searchPath, stops]

end Graph

namespace Model

variable {m : Model} {c : ElementId}

/-- A chain of elements that starts at a class, goes along resolved supertype links and comes to no
element twice. -/
structure SimpleChain (m : Model) (c : ElementId) (chain : List ElementId) : Prop where
  starts : chain.head? = some c
  inherits : chain.IsChain m.Inherits
  nodup : chain.Nodup
  known : ∀ x ∈ chain, ∃ e, m.get? x = some e

theorem simplePath_superTypes {chain : List ElementId} :
    Graph.SimplePath m.superTypes m.ids c chain ↔ m.SimpleChain c chain := by
  constructor
  · rintro ⟨starts, follows, nodup, listed⟩
    exact ⟨starts, follows.imp fun _ _ => mem_superTypes.mp, nodup,
      fun x here => mem_ids.mp (listed here)⟩
  · rintro ⟨starts, inherits, nodup, known⟩
    exact ⟨starts, inherits.imp fun _ _ => mem_superTypes.mpr, nodup,
      fun x here => mem_ids.mpr (known x here)⟩

/-- The search for the longest chain above a class, with one set of the elements on the path. -/
def searchChain (m : Model) (depth : Nat) (c : ElementId) : StateT (List ElementId) Option Nat :=
  Graph.searchPath m.superTypes m.ids depth c

/-- Off circles, a class is one element longer than the longest chain of a direct supertype. -/
theorem superChain_eq_succ (known : c ∈ m.ids) (noLoop : ¬ TransGen m.Inherits c c) :
    m.superChain c = 1 + (((m.superTypes c).map m.superChain).max?.getD 0) := by
  rw [superChain, Graph.longestPath_of_mem known]
  congr 3
  refine List.map_congr_left fun sup isSuper => Graph.longestPath_erase m.nodup_ids fun path => ?_
  rw [path_superTypes] at path
  exact noLoop (.head' (mem_superTypes.mp isSuper) path)

/-- The number of a class is the length of a longest simple chain that starts at it, also on
circles. The search for it ends with calls nested no deeper than there are elements and one more,
and leaves the set of the elements on its path empty. Where nothing above the class is above itself,
the number is one more than the greatest of a direct supertype, and everything above it has a
smaller one. -/
theorem superChain_exact (m : Model) (c : ElementId) :
    (∀ e, m.get? c = some e →
      IsGreatest {n | ∃ chain, m.SimpleChain c chain ∧ chain.length = n} (m.superChain c)) ∧
    (m.searchChain (m.size + 1) c).run [] = some (m.superChain c, []) ∧
    (m.AcyclicAbove [c] →
      (∀ e, m.get? c = some e →
        m.superChain c = 1 + (((m.superTypes c).map m.superChain).max?.getD 0)) ∧
      ∀ sup, TransGen m.Inherits c sup → m.superChain sup < m.superChain c) := by
  refine ⟨fun e found => ?_, ?_, fun acyclic => ⟨fun e found => ?_, fun sup above => ?_⟩⟩
  · have greatest : IsGreatest
        {n | ∃ chain, Graph.SimplePath m.superTypes m.ids c chain ∧ chain.length = n}
        (m.superChain c) := Graph.isGreatest_longestPath m.nodup_ids (mem_ids.mpr ⟨e, found⟩)
    simpa only [simplePath_superTypes] using greatest
  · have all : m.ids.filter (· ∉ ([] : List ElementId)) = m.ids := by simp
    have searched : (m.searchChain (m.size + 1) c).run [] =
        some (Graph.longestPath m.superTypes (m.ids.filter (· ∉ ([] : List ElementId))) c, []) :=
      Graph.run_searchPath m.nodup_ids (by rw [all]; simp [ids]) c
    rwa [all] at searched
  · exact superChain_eq_succ (mem_ids.mpr ⟨e, found⟩) (acyclic c (above_of_mem List.mem_cons_self))
  · exact superChain_lt_of_above acyclic (above_of_mem List.mem_cons_self) above

/-- Two classes above each other, one of them also above itself, and a subclass of the other one. -/
def entangled : Model :=
  runInheriting
    [.create .eClass (some "Egg"), .create .eClass (some "Hen"), .create .eClass (some "Chick")]
    [(⟨0⟩, [⟨1⟩]), (⟨1⟩, [⟨1⟩, ⟨0⟩]), (⟨2⟩, [⟨0⟩])]

/-- The subclass of a circle has the circle's elements above it, each once. The lowest class of a
diamond has two above it on a longest chain. -/
theorem superChain_exact_shapes :
    IsGreatest {n | ∃ chain, entangled.SimpleChain ⟨2⟩ chain ∧ chain.length = n} 3 ∧
      shapes.superChain ⟨4⟩ = 1 + ([2, 2].max?.getD 0) ∧
      shapes.superChain ⟨1⟩ < shapes.superChain ⟨4⟩ := by
  have three : entangled.superChain ⟨2⟩ = 3 := by decide +kernel
  obtain ⟨e, found⟩ : ∃ e, entangled.get? ⟨2⟩ = some e := ⟨_, rfl⟩
  obtain ⟨e', found'⟩ : ∃ e, shapes.get? ⟨4⟩ = some e := ⟨_, rfl⟩
  have twos : (shapes.superTypes ⟨4⟩).map shapes.superChain = [2, 2] := by decide +kernel
  have greatest := (superChain_exact entangled ⟨2⟩).1 e found
  obtain ⟨next, below⟩ := (superChain_exact shapes ⟨4⟩).2.2 (acyclicAbove_shapes [⟨4⟩])
  have above : TransGen shapes.Inherits ⟨4⟩ ⟨1⟩ := by
    have first : shapes.Inherits ⟨4⟩ ⟨2⟩ := mem_superTypes.mp (by decide +kernel)
    have second : shapes.Inherits ⟨2⟩ ⟨1⟩ := mem_superTypes.mp (by decide +kernel)
    exact .head first (.single second)
  rw [three] at greatest
  rw [twos] at next
  exact ⟨greatest, next e' found', below ⟨1⟩ above⟩

end Model

end Metamodel
