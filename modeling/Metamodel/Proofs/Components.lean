import Mathlib.Data.List.Nodup
import Mathlib.Logic.Relation
import Mathlib.Tactic.Tauto
import Metamodel.Graph.Components

/-!
Correctness of the strongly connected components.

The walk against the edges keeps its open nodes on the list of tasks. What it has finished either
leads to finished nodes only or is in a circle with an open node, so a node is left behind before
everything that it leads to, unless both are in one component. Taken from the back, each leader thus
reaches nothing new outside its own component.

Results:
1. `mem_reach_of_mem_next`: what is reached is closed under successors.
2. `postOrder_settled`: the order in which nodes are finished.
3. `classes_components`: the components are the classes of nodes that lead to each other.
-/

namespace Metamodel.Graph

variable {α : Type}

/-! ## Paths -/

/-- A way along successors, of any length. -/
def Path (next : α → List α) : α → α → Prop := Relation.ReflTransGen fun a b => b ∈ next a

/-- Each of the two leads to the other. -/
def Mutual (next : α → List α) (a b : α) : Prop := Path next a b ∧ Path next b a

namespace Mutual

variable {next : α → List α} {a b c : α}

theorem refl (a : α) : Mutual next a a := ⟨.refl, .refl⟩

theorem symm (h : Mutual next a b) : Mutual next b a := ⟨h.2, h.1⟩

theorem trans (ab : Mutual next a b) (bc : Mutual next b c) : Mutual next a c :=
  ⟨Relation.ReflTransGen.trans ab.1 bc.1, Relation.ReflTransGen.trans bc.2 ab.2⟩

end Mutual

theorem Path.mem {next : α → List α} {nodes : List α}
    (closed : ∀ a ∈ nodes, ∀ b ∈ next a, b ∈ nodes) {a b : α} (path : Path next a b)
    (start : a ∈ nodes) : b ∈ nodes := by
  induction path with
  | refl => exact start
  | tail _ edge ih => exact closed _ ih _ edge

variable [DecidableEq α]

theorem mem_successors {edges : List (α × α)} {a b : α} :
    b ∈ successors edges a ↔ (a, b) ∈ edges := by
  simp [successors]

theorem mem_predecessors {edges : List (α × α)} {a b : α} :
    a ∈ predecessors edges b ↔ (a, b) ∈ edges := by
  simp [predecessors]

theorem path_predecessors {edges : List (α × α)} {a b : α} :
    Path (predecessors edges) a b ↔ Path (successors edges) b a := by
  have flip : (Function.swap fun a b => b ∈ successors edges a) =
      fun a b => b ∈ predecessors edges a := by
    funext a b
    simp only [Function.swap, mem_successors, mem_predecessors]
  unfold Path
  rw [← flip, Relation.reflTransGen_swap]

theorem mutual_predecessors {edges : List (α × α)} {a b : α} :
    Mutual (predecessors edges) a b ↔ Mutual (successors edges) b a := by
  unfold Mutual
  rw [path_predecessors, path_predecessors]

/-! ## What is reached -/

section Reach

variable {next : α → List α} {unseen pending : List α}

theorem exists_path_of_mem_reach {x : α} (reached : x ∈ reach next unseen pending) :
    ∃ a ∈ pending, Path next a x := by
  fun_induction reach next unseen pending with
  | case1 => cases reached
  | case2 unseen a pending here ih =>
    rcases List.mem_cons.mp reached with rfl | later
    · exact ⟨x, List.mem_cons_self, .refl⟩
    · obtain ⟨b, member, path⟩ := ih later
      rcases List.mem_append.mp member with edge | waiting
      · exact ⟨a, List.mem_cons_self, .head edge path⟩
      · exact ⟨b, List.mem_cons_of_mem a waiting, path⟩
  | case3 unseen a pending _ ih =>
    obtain ⟨b, waiting, path⟩ := ih reached
    exact ⟨b, List.mem_cons_of_mem a waiting, path⟩

theorem mem_reach_of_mem_pending {x : α} (waiting : x ∈ pending) (new : x ∈ unseen) :
    x ∈ reach next unseen pending := by
  fun_induction reach next unseen pending with
  | case1 => cases waiting
  | case2 unseen a pending _ ih =>
    by_cases same : x = a
    · exact same ▸ List.mem_cons_self
    · have later : x ∈ pending := (List.mem_cons.mp waiting).resolve_left same
      have left : x ∈ unseen.erase a := (List.mem_erase_of_ne same).mpr new
      exact List.mem_cons_of_mem a (ih (List.mem_append_right _ later) left)
  | case3 unseen a pending seen ih =>
    rcases List.mem_cons.mp waiting with rfl | later
    · exact absurd new seen
    · exact ih later new

/-- What is reached is closed under the successors that are not seen before. -/
theorem mem_reach_of_mem_next {a b : α} (reached : a ∈ reach next unseen pending)
    (edge : b ∈ next a) (new : b ∈ unseen) : b ∈ reach next unseen pending := by
  fun_induction reach next unseen pending with
  | case1 => cases reached
  | case2 unseen first pending _ ih =>
    by_cases same : b = first
    · exact same ▸ List.mem_cons_self
    · have left : b ∈ unseen.erase first := (List.mem_erase_of_ne same).mpr new
      rcases List.mem_cons.mp reached with rfl | later
      · have waiting : b ∈ next a ++ pending := List.mem_append_left _ edge
        exact List.mem_cons_of_mem _ (mem_reach_of_mem_pending waiting left)
      · exact List.mem_cons_of_mem _ (ih later left)
  | case3 unseen first pending _ ih => exact ih reached new

end Reach

/-! ## The order in which nodes are finished -/

namespace Task

def node : Task α → α
  | .enter a => a
  | .finish a => a

def open? : Task α → Option α
  | .enter _ => none
  | .finish a => some a

end Task

/-- The nodes that have been entered and are not finished. -/
def opened (tasks : List (Task α)) : List α := tasks.filterMap Task.open?

omit [DecidableEq α] in
theorem opened_enter (tasks : List (Task α)) (l : List α) :
    opened (l.map .enter ++ tasks) = opened tasks := by
  induction l with
  | nil => rfl
  | cons a l ih => exact ih

omit [DecidableEq α] in
theorem opened_map_enter (l : List α) : opened (l.map .enter) = [] := by
  simpa [opened] using opened_enter [] l

section PostOrder

variable {next : α → List α} {unseen : List α} {tasks : List (Task α)}

theorem mem_postOrder_of_opened {a : α} (isOpen : a ∈ opened tasks) :
    a ∈ postOrder next unseen tasks := by
  fun_induction postOrder next unseen tasks with
  | case1 => cases isOpen
  | case2 unseen b tasks ih =>
    rcases List.mem_cons.mp isOpen with rfl | later
    · exact List.mem_cons_self
    · exact List.mem_cons_of_mem b (ih later)
  | case3 unseen b tasks _ ih =>
    refine ih ?_
    rw [opened_enter]
    exact List.mem_cons_of_mem b isOpen
  | case4 unseen b tasks _ ih => exact ih isOpen

theorem mem_postOrder_of_enter {a : α} (waiting : .enter a ∈ tasks) (new : a ∈ unseen) :
    a ∈ postOrder next unseen tasks := by
  fun_induction postOrder next unseen tasks with
  | case1 => cases waiting
  | case2 unseen b tasks ih =>
    have later : .enter a ∈ tasks := by simpa using waiting
    exact List.mem_cons_of_mem b (ih later new)
  | case3 unseen b tasks _ ih =>
    by_cases same : a = b
    · refine mem_postOrder_of_opened ?_
      rw [opened_enter]
      exact same ▸ List.mem_cons_self
    · have later : .enter a ∈ tasks := by simpa [same] using waiting
      refine ih (List.mem_append_right _ (List.mem_cons_of_mem _ later)) ?_
      exact (List.mem_erase_of_ne same).mpr new
  | case4 unseen b tasks seen ih =>
    have later : .enter a ∈ tasks := by
      rcases List.mem_cons.mp waiting with same | later
      · cases same
        exact absurd new seen
      · exact later
    exact ih later new

theorem mem_of_mem_postOrder {a : α} (finished : a ∈ postOrder next unseen tasks) :
    a ∈ unseen ∨ a ∈ opened tasks := by
  fun_induction postOrder next unseen tasks with
  | case1 => cases finished
  | case2 unseen b tasks ih =>
    rcases List.mem_cons.mp finished with rfl | later
    · exact .inr List.mem_cons_self
    · exact (ih later).imp_right (List.mem_cons_of_mem b)
  | case3 unseen b tasks here ih =>
    rcases ih finished with left | isOpen
    · exact .inl (List.mem_of_mem_erase left)
    · rw [opened_enter] at isOpen
      rcases List.mem_cons.mp isOpen with rfl | isOpen
      · exact .inl here
      · exact .inr isOpen
  | case4 unseen b tasks _ ih => exact ih finished

theorem nodup_postOrder (nodup : unseen.Nodup) (once : (opened tasks).Nodup)
    (apart : unseen.Disjoint (opened tasks)) : (postOrder next unseen tasks).Nodup := by
  fun_induction postOrder next unseen tasks with
  | case1 => exact List.nodup_nil
  | case2 unseen b tasks ih =>
    obtain ⟨notOpen, once⟩ := List.nodup_cons.mp once
    obtain ⟨notUnseen, apart⟩ := List.disjoint_cons_right.mp apart
    refine List.nodup_cons.mpr ⟨fun again => ?_, ih nodup once apart⟩
    exact (mem_of_mem_postOrder again).elim notUnseen notOpen
  | case3 unseen b tasks here ih =>
    refine ih (nodup.erase b) ?_ ?_
    · rw [opened_enter]
      exact List.nodup_cons.mpr ⟨apart here, once⟩
    · rw [opened_enter]
      refine List.disjoint_cons_right.mpr ⟨nodup.not_mem_erase, ?_⟩
      exact fun x left => apart (List.mem_of_mem_erase left)
  | case4 unseen b tasks _ ih => exact ih nodup once apart

end PostOrder

/-- Before an open node is finished, each successor of it that is still unseen is entered; `before`
lists what is entered earlier. -/
def Owed (next : α → List α) (unseen : List α) : List α → List (Task α) → Prop
  | _, [] => True
  | before, .enter a :: tasks => Owed next unseen (a :: before) tasks
  | before, .finish a :: tasks =>
    (∀ b ∈ next a, b ∈ unseen → b ∈ before) ∧ Owed next unseen before tasks

namespace Owed

variable {next : α → List α} {unseen unseen' before before' : List α} {tasks : List (Task α)}

omit [DecidableEq α] in
theorem mono (owed : Owed next unseen before tasks)
    (fewer : ∀ b ∈ unseen', b ∈ unseen ∧ (b ∈ before → b ∈ before')) :
    Owed next unseen' before' tasks := by
  induction tasks generalizing before before' with
  | nil => trivial
  | cons task tasks ih =>
    cases task with
    | enter a =>
      have entered : Owed next unseen (a :: before) tasks := owed
      refine ih entered fun b new => ⟨(fewer b new).1, fun earlier => ?_⟩
      rcases List.mem_cons.mp earlier with rfl | earlier
      · exact List.mem_cons_self
      · exact List.mem_cons_of_mem a ((fewer b new).2 earlier)
    | finish a =>
      refine ⟨fun b edge new => ?_, ih owed.2 fewer⟩
      exact (fewer b new).2 (owed.1 b edge (fewer b new).1)

omit [DecidableEq α] in
theorem enter_iff (l : List α) :
    Owed next unseen before (l.map .enter ++ tasks) ↔
      Owed next unseen (l.reverse ++ before) tasks := by
  induction l generalizing before with
  | nil => rfl
  | cons a l ih =>
    rw [List.reverse_cons, List.append_assoc]
    exact ih

end Owed

/-- The state of a walk: what it has finished, what it has not met, and what is left to do. -/
structure Finishing (next : α → List α) (nodes finished unseen : List α)
    (tasks : List (Task α)) : Prop where
  covers : ∀ a, a ∈ nodes ↔ a ∈ finished ∨ a ∈ unseen ∨ a ∈ opened tasks
  nodup : unseen.Nodup
  /-- An open node leads to everything that is done before it is finished. -/
  below : tasks.Pairwise fun earlier later => ∀ a, later = .finish a → Path next a earlier.node
  owed : Owed next unseen [] tasks
  passed : ∀ v ∈ finished, ∀ b ∈ next v, b ∉ unseen
  settled : ∀ v ∈ finished,
    (∀ w, Path next v w → w ∈ finished) ∨ ∃ o ∈ opened tasks, Mutual next v o

namespace Finishing

variable {next : α → List α} {nodes finished unseen : List α} {tasks : List (Task α)} {a : α}

omit [DecidableEq α] in
theorem start (nodup : nodes.Nodup) : Finishing next nodes [] nodes (nodes.map .enter) := by
  refine ⟨fun a => ?_, nodup, ?_, ?_, ?_, ?_⟩
  · simp [opened_map_enter]
  · refine List.pairwise_map.mpr (List.pairwise_of_forall fun x y => ?_)
    intro a same
    cases same
  · have nothing : Owed next nodes (nodes.reverse ++ []) [] := trivial
    have listed := (Owed.enter_iff nodes).mpr nothing
    rwa [List.append_nil] at listed
  · intro v done
    cases done
  · intro v done
    cases done

omit [DecidableEq α] in
theorem skip (state : Finishing next nodes finished unseen (.enter a :: tasks)) (seen : a ∉ unseen) :
    Finishing next nodes finished unseen tasks where
  covers := state.covers
  nodup := state.nodup
  below := (List.pairwise_cons.mp state.below).2
  owed := by
    have entered : Owed next unseen [a] tasks := state.owed
    refine entered.mono fun b new => ⟨new, fun same => ?_⟩
    rw [List.mem_singleton.mp same] at new
    exact absurd new seen
  passed := state.passed
  settled := state.settled

theorem enter (state : Finishing next nodes finished unseen (.enter a :: tasks)) (new : a ∈ unseen) :
    Finishing next nodes finished (unseen.erase a) ((next a).map .enter ++ .finish a :: tasks) := by
  have gone : a ∉ unseen.erase a := state.nodup.not_mem_erase
  have nowOpen : opened ((next a).map .enter ++ .finish a :: tasks) = a :: opened tasks :=
    opened_enter _ _
  obtain ⟨first, rest⟩ := List.pairwise_cons.mp state.below
  refine ⟨fun b => ?covers, state.nodup.erase a, ?below, ?owed, ?passed, ?settled⟩
  case covers =>
    rw [state.covers, nowOpen, List.mem_cons]
    have split : b ∈ unseen ↔ b = a ∨ b ∈ unseen.erase a := by
      by_cases same : b = a
      · simp [same, new]
      · simp [same, List.mem_erase_of_ne same]
    rw [split]
    have same : opened (.enter a :: tasks) = opened tasks := rfl
    rw [same]
    tauto
  case below =>
    refine List.pairwise_append.mpr ⟨?_, List.pairwise_cons.mpr ⟨first, rest⟩, ?_⟩
    · refine List.pairwise_map.mpr (List.pairwise_of_forall fun x y => ?_)
      intro c same
      cases same
    · -- What leads to `a` leads to its successors, which come before it now.
      intro task successor later member c same
      obtain ⟨b, edge, rfl⟩ := List.mem_map.mp successor
      have step : Path next a b := .single edge
      rcases List.mem_cons.mp member with rfl | member
      · cases same
        exact step
      · exact Relation.ReflTransGen.trans (first later member c same) step
  case owed =>
    refine (Owed.enter_iff (next a)).mpr ⟨fun b edge _ => ?_, ?_⟩
    · simpa using edge
    · have entered : Owed next unseen [a] tasks := state.owed
      refine entered.mono fun b left => ?_
      refine ⟨List.mem_of_mem_erase left, fun same => ?_⟩
      rw [List.mem_singleton.mp same] at left
      exact absurd left gone
  case passed => exact fun v done b edge left => state.passed v done b edge (List.mem_of_mem_erase left)
  case settled =>
    intro v done
    rw [nowOpen]
    refine (state.settled v done).imp_right ?_
    rintro ⟨o, isOpen, round⟩
    exact ⟨o, List.mem_cons_of_mem a isOpen, round⟩

omit [DecidableEq α] in
/-- A node that is about to be finished leads back to an open one, or to finished ones only. -/
theorem last (closed : ∀ a ∈ nodes, ∀ b ∈ next a, b ∈ nodes)
    (state : Finishing next nodes finished unseen (.finish a :: tasks)) :
    (∀ w, Path next a w → w ∈ a :: finished) ∨ ∃ o ∈ opened tasks, Mutual next a o := by
  by_cases back : ∃ o ∈ opened tasks, Path next a o
  · obtain ⟨o, isOpen, path⟩ := back
    refine .inr ⟨o, isOpen, path, ?_⟩
    obtain ⟨task, member, isFinish⟩ := List.mem_filterMap.mp isOpen
    have same : task = .finish o := by
      cases task with
      | enter b => cases isFinish
      | finish b =>
        cases isFinish
        rfl
    exact (List.pairwise_cons.mp state.below).1 task member o same
  · -- No path from `a` comes to an open node, and what it comes to has been met.
    refine .inl fun w path => ?_
    induction path with
    | refl => exact List.mem_cons_self
    | @tail v w path edge ih =>
      have here : v ∈ nodes := by
        refine (state.covers v).mpr ?_
        rcases List.mem_cons.mp ih with rfl | done
        · exact .inr (.inr List.mem_cons_self)
        · exact .inl done
      have seen : w ∉ unseen := by
        rcases List.mem_cons.mp ih with rfl | done
        · exact fun new => List.not_mem_nil (state.owed.1 w edge new)
        · exact state.passed v done w edge
      rcases (state.covers w).mp (closed v here w edge) with done | new | isOpen
      · exact List.mem_cons_of_mem a done
      · exact absurd new seen
      · rcases List.mem_cons.mp isOpen with rfl | isOpen
        · exact List.mem_cons_self
        · exact absurd ⟨w, isOpen, path.tail edge⟩ back

omit [DecidableEq α] in
theorem finish (closed : ∀ a ∈ nodes, ∀ b ∈ next a, b ∈ nodes)
    (state : Finishing next nodes finished unseen (.finish a :: tasks)) :
    Finishing next nodes (a :: finished) unseen tasks where
  covers b := by
    have split : opened (.finish a :: tasks) = a :: opened tasks := rfl
    rw [state.covers, split, List.mem_cons, List.mem_cons]
    tauto
  nodup := state.nodup
  below := (List.pairwise_cons.mp state.below).2
  owed := state.owed.2
  passed := by
    intro v done b edge new
    rcases List.mem_cons.mp done with rfl | done
    · exact List.not_mem_nil (state.owed.1 b edge new)
    · exact state.passed v done b edge new
  settled := by
    intro v done
    have self := state.last closed
    rcases List.mem_cons.mp done with rfl | done
    · exact self
    · rcases state.settled v done with inside | ⟨o, isOpen, round⟩
      · exact .inl fun w path => List.mem_cons_of_mem a (inside w path)
      · -- A circle through the node that is finished now ends where that node does.
        rcases List.mem_cons.mp isOpen with rfl | isOpen
        · refine self.imp (fun inside w path => ?_) ?_
          · exact inside w (Relation.ReflTransGen.trans round.2 path)
          · rintro ⟨o', isOpen, round'⟩
            exact ⟨o', isOpen, round.trans round'⟩
        · exact .inr ⟨o, isOpen, round⟩

/-- Wherever the rest of the walk is cut, what is finished by then leads to nothing else or is in a
circle with something that is finished later. -/
theorem settled_of_split (closed : ∀ a ∈ nodes, ∀ b ∈ next a, b ∈ nodes)
    (state : Finishing next nodes finished unseen tasks) {pre post : List α}
    (split : postOrder next unseen tasks = pre ++ post) {v : α} (done : v ∈ finished ∨ v ∈ pre) :
    (∀ w, Path next v w → w ∈ finished ∨ w ∈ pre) ∨ ∃ o ∈ post, Mutual next v o := by
  fun_induction postOrder next unseen tasks generalizing finished pre with
  | case1 unseen =>
    obtain ⟨rfl, rfl⟩ := List.append_eq_nil_iff.mp split.symm
    rcases state.settled v (done.resolve_right List.not_mem_nil) with inside | ⟨o, isOpen, -⟩
    · exact .inl fun w path => .inl (inside w path)
    · cases isOpen
  | case2 unseen a tasks ih =>
    cases pre with
    | nil =>
      -- The cut is here, and what is open is finished behind it.
      have later {o : α} (isOpen : o ∈ opened (.finish a :: tasks)) : o ∈ post := by
        rw [List.nil_append] at split
        rw [← split]
        exact (List.mem_cons.mp isOpen).elim (fun same => same ▸ List.mem_cons_self)
          fun isOpen => List.mem_cons_of_mem a (mem_postOrder_of_opened isOpen)
      refine (state.settled v (done.resolve_right List.not_mem_nil)).imp ?_ ?_
      · exact fun inside w path => .inl (inside w path)
      · rintro ⟨o, isOpen, round⟩
        exact ⟨o, later isOpen, round⟩
    | cons b pre =>
      rw [List.cons_append, List.cons.injEq] at split
      obtain ⟨rfl, split⟩ := split
      have moved (w : α) : (w ∈ finished ∨ w ∈ a :: pre) ↔ (w ∈ a :: finished ∨ w ∈ pre) := by
        rw [List.mem_cons, List.mem_cons]
        tauto
      simp only [moved] at done ⊢
      exact ih (state.finish closed) split done
  | case3 unseen a tasks new ih => exact ih (state.enter new) split done
  | case4 unseen a tasks seen ih => exact ih (state.skip seen) split done

end Finishing

/-- Wherever the order is cut, the nodes before the cut lead to nothing after it, or are in a circle
with something after it. -/
theorem postOrder_settled {next : α → List α} {nodes : List α} (nodup : nodes.Nodup)
    (closed : ∀ a ∈ nodes, ∀ b ∈ next a, b ∈ nodes) {pre post : List α}
    (split : postOrder next nodes (nodes.map .enter) = pre ++ post) {v : α} (done : v ∈ pre) :
    (∀ w, Path next v w → w ∈ pre) ∨ ∃ o ∈ post, Mutual next v o := by
  have cut := (Finishing.start nodup).settled_of_split closed split (.inr done)
  simpa only [List.not_mem_nil, false_or] using cut

theorem mem_postOrder {next : α → List α} {nodes : List α} {a : α} :
    a ∈ postOrder next nodes (nodes.map .enter) ↔ a ∈ nodes := by
  constructor
  · intro finished
    rcases mem_of_mem_postOrder finished with here | isOpen
    · exact here
    · rw [opened_map_enter] at isOpen
      cases isOpen
  · exact fun here => mem_postOrder_of_enter (List.mem_map_of_mem here) here

/-! ## Gathering the components -/

/-- Lists that partition the nodes into the classes of those that lead to each other. -/
structure Classes (next : α → List α) (nodes : List α) (classes : List (List α)) : Prop where
  nonempty : ∀ c ∈ classes, c ≠ []
  nodup : ∀ c ∈ classes, c.Nodup
  apart : classes.Pairwise List.Disjoint
  whole : ∀ c ∈ classes, ∀ a ∈ c, ∀ b, b ∈ c ↔ Mutual next a b
  covers : ∀ a, a ∈ nodes ↔ ∃ c ∈ classes, a ∈ c

omit [DecidableEq α] in
/-- A class has an edge inside exactly if its nodes lead back to themselves. -/
theorem Classes.inner_edge_iff {next : α → List α} {nodes : List α} {classes : List (List α)}
    (parts : Classes next nodes classes) {c : List α} (member : c ∈ classes) {a : α} (here : a ∈ c) :
    (∃ x ∈ c, ∃ y ∈ c, y ∈ next x) ↔ Relation.TransGen (fun x y => y ∈ next x) a a := by
  constructor
  · rintro ⟨x, inX, y, inY, edge⟩
    have there : Path next a x := ((parts.whole c member a here x).mp inX).1
    have back : Path next y a := ((parts.whole c member a here y).mp inY).2
    exact Relation.TransGen.trans_right there (.head' edge back)
  · intro round
    obtain ⟨b, edge, back⟩ := Relation.TransGen.head'_iff.mp round
    exact ⟨a, here, b, (parts.whole c member a here b).mpr ⟨.single edge, back⟩, edge⟩

/-- Every leader leads to later ones only if they are in a circle with it or with an earlier one. -/
def Leading (next : α → List α) (leaders : List α) : Prop :=
  ∀ {done leader rest}, leaders = done ++ leader :: rest →
    ∀ b ∈ rest, Path next leader b → ∃ o ∈ done ++ [leader], Mutual next o b

section Gather

variable {next : α → List α} {nodes unseen all done leaders : List α}

theorem gather_apart (unseen leaders : List α) :
    (gather next unseen leaders).Pairwise List.Disjoint := by
  induction leaders generalizing unseen with
  | nil => exact .nil
  | cons leader leaders ih =>
    unfold gather
    split
    · refine List.pairwise_cons.mpr ⟨fun component later a first => ?_, ih _⟩
      intro second
      have left := (List.mem_filter.mp (mem_of_mem_gather later second)).2
      simp [first] at left
    · exact ih unseen

theorem gather_nodup (nodup : unseen.Nodup) :
    ∀ component ∈ gather next unseen leaders, component.Nodup := by
  induction leaders generalizing unseen with
  | nil => simp [gather]
  | cons leader leaders ih =>
    unfold gather
    split
    · refine List.forall_mem_cons.mpr ⟨nodup_reach [leader] nodup, ?_⟩
      exact ih (nodup.filter _)
    · exact ih nodup

/-- What a leader reaches is its class, when the classes of earlier leaders are gone and no others
are. -/
theorem mem_reach_leader (closed : ∀ a ∈ nodes, ∀ b ∈ next a, b ∈ nodes)
    (leading : Leading next all) (listed : ∀ a, a ∈ nodes ↔ a ∈ all) {leader : α} {rest : List α}
    (split : all = done ++ leader :: rest)
    (left : ∀ b, b ∈ unseen ↔ b ∈ nodes ∧ ∀ o ∈ done, ¬ Mutual next o b)
    (new : leader ∈ unseen) (b : α) :
    b ∈ reach next unseen [leader] ↔ Mutual next leader b := by
  constructor
  · intro reached
    have inside := (left b).mp (reach_subset next unseen [leader] reached)
    obtain ⟨start, member, path⟩ := exists_path_of_mem_reach reached
    rw [List.mem_singleton.mp member] at path
    have place := (listed b).mp inside.1
    rw [split] at place
    rcases List.mem_append.mp place with earlier | here
    · exact absurd (.refl b) (inside.2 b earlier)
    · rcases List.mem_cons.mp here with rfl | later
      · exact .refl b
      · obtain ⟨o, member, round⟩ := leading split b later path
        rcases List.mem_append.mp member with earlier | same
        · exact absurd round (inside.2 o earlier)
        · exact List.mem_singleton.mp same ▸ round
  · rintro ⟨path, back⟩
    have start := (left leader).mp new
    -- Every node on the way is in the class of the leader, so none of them is gone.
    induction path with
    | refl => exact mem_reach_of_mem_pending List.mem_cons_self new
    | @tail v w path edge ih =>
      have round : Mutual next leader w := ⟨path.tail edge, back⟩
      have here : w ∈ unseen := by
        refine (left w).mpr ⟨round.1.mem closed start.1, fun o earlier other => ?_⟩
        exact start.2 o earlier (other.trans round.symm)
      exact mem_reach_of_mem_next (ih (.head edge back)) edge here

/-- Taking leader after leader gathers, for each of them that is left, all that it leads to and that
leads back. -/
theorem parts_gather (closed : ∀ a ∈ nodes, ∀ b ∈ next a, b ∈ nodes)
    (leading : Leading next all) (listed : ∀ a, a ∈ nodes ↔ a ∈ all)
    (split : all = done ++ leaders)
    (left : ∀ b, b ∈ unseen ↔ b ∈ nodes ∧ ∀ o ∈ done, ¬ Mutual next o b) :
    (∀ c ∈ gather next unseen leaders, ∃ a ∈ c, ∀ b, b ∈ c ↔ Mutual next a b) ∧
      ∀ a ∈ unseen, ∃ c ∈ gather next unseen leaders, a ∈ c := by
  induction leaders generalizing done unseen with
  | nil =>
    refine ⟨by simp [gather], fun a new => ?_⟩
    obtain ⟨here, free⟩ := (left a).mp new
    rw [listed, split, List.append_nil] at here
    exact absurd (.refl a) (free a here)
  | cons leader rest ih =>
    have split' : all = (done ++ [leader]) ++ rest := by simp [split]
    by_cases new : leader ∈ unseen
    · have whole := mem_reach_leader closed leading listed split left new
      have left' (b : α) : b ∈ unseen.filter (!(reach next unseen [leader]).contains ·) ↔
          b ∈ nodes ∧ ∀ o ∈ done ++ [leader], ¬ Mutual next o b := by
        simp only [List.mem_filter, List.contains_iff_mem, Bool.not_eq_true', ← Bool.not_eq_true,
          whole, left, List.forall_mem_append, List.forall_mem_singleton]
        tauto
      obtain ⟨each, covered⟩ := ih split' left'
      rw [gather, if_pos new]
      refine ⟨List.forall_mem_cons.mpr ⟨⟨leader, ?_, whole⟩, each⟩, fun a here => ?_⟩
      · exact (whole leader).mpr (.refl leader)
      · by_cases first : a ∈ reach next unseen [leader]
        · exact ⟨_, List.mem_cons_self, first⟩
        · have later : a ∈ unseen.filter (!(reach next unseen [leader]).contains ·) :=
            List.mem_filter.mpr ⟨here, by simpa using first⟩
          obtain ⟨c, member, inside⟩ := covered a later
          exact ⟨c, List.mem_cons_of_mem _ member, inside⟩
    · have known : leader ∈ nodes := (listed leader).mpr (split ▸ by simp)
      -- The class of the leader is gone with that of an earlier one.
      obtain ⟨o, earlier, round⟩ : ∃ o ∈ done, Mutual next o leader := by
        by_contra none
        exact new ((left leader).mpr ⟨known, fun o earlier round => none ⟨o, earlier, round⟩⟩)
      have left' (b : α) :
          b ∈ unseen ↔ b ∈ nodes ∧ ∀ o ∈ done ++ [leader], ¬ Mutual next o b := by
        rw [left, List.forall_mem_append, List.forall_mem_singleton]
        refine and_congr_right fun _ => ⟨fun free => ⟨free, fun other => ?_⟩, And.left⟩
        exact free o earlier (round.trans other)
      rw [gather, if_neg new]
      exact ih split' left'

/-- What is gathered are the classes of what is left. -/
theorem classes_gather (closed : ∀ a ∈ nodes, ∀ b ∈ next a, b ∈ nodes)
    (leading : Leading next all) (listed : ∀ a, a ∈ nodes ↔ a ∈ all)
    (split : all = done ++ leaders)
    (left : ∀ b, b ∈ unseen ↔ b ∈ nodes ∧ ∀ o ∈ done, ¬ Mutual next o b)
    (nodup : unseen.Nodup) : Classes next unseen (gather next unseen leaders) := by
  obtain ⟨each, covered⟩ := parts_gather closed leading listed split left
  refine ⟨?nonempty, gather_nodup nodup, gather_apart unseen leaders, ?whole, ?covers⟩
  case nonempty =>
    intro c member
    obtain ⟨a, here, -⟩ := each c member
    exact List.ne_nil_of_mem here
  case whole =>
    intro c member a here b
    obtain ⟨leader, -, whole⟩ := each c member
    rw [whole] at here ⊢
    exact ⟨fun other => here.symm.trans other, fun other => here.trans other⟩
  case covers =>
    intro a
    refine ⟨covered a, ?_⟩
    rintro ⟨c, member, here⟩
    exact mem_of_mem_gather member here

end Gather

/-- The reverse of the order in which a walk against the edges finishes nodes is one of leaders. -/
theorem leading_reverse_postOrder {nodes : List α} {edges : List (α × α)} (nodup : nodes.Nodup)
    (inside : ∀ e ∈ edges, e.1 ∈ nodes ∧ e.2 ∈ nodes) :
    Leading (successors edges)
      (postOrder (predecessors edges) nodes (nodes.map .enter)).reverse := by
  intro done leader rest split b later path
  have closed : ∀ a ∈ nodes, ∀ b ∈ predecessors edges a, b ∈ nodes :=
    fun a _ b edge => (inside _ (mem_predecessors.mp edge)).1
  have order : postOrder (predecessors edges) nodes (nodes.map .enter) =
      rest.reverse ++ leader :: done.reverse := by
    rw [← List.reverse_reverse (postOrder _ _ _), split]
    simp
  have once : (rest.reverse ++ leader :: done.reverse).Nodup := by
    rw [← order]
    exact nodup_postOrder nodup (by simp [opened_map_enter]) (by simp [opened_map_enter])
  rcases postOrder_settled nodup closed order (List.mem_reverse.mpr later) with stays | circle
  · -- Against the edges `b` leads to the leader, which is finished later and not twice.
    have back := stays leader (path_predecessors.mpr path)
    exact absurd List.mem_cons_self ((List.nodup_append.mp once).2.2 leader back leader · rfl)
  · obtain ⟨o, member, round⟩ := circle
    refine ⟨o, ?_, mutual_predecessors.mp round⟩
    rw [List.mem_append, List.mem_singleton]
    rcases List.mem_cons.mp member with same | earlier
    · exact .inr same
    · exact .inl (List.mem_reverse.mp earlier)

/-- The components are the classes of nodes that lead to each other. -/
theorem classes_components {nodes : List α} {edges : List (α × α)} (nodup : nodes.Nodup)
    (inside : ∀ e ∈ edges, e.1 ∈ nodes ∧ e.2 ∈ nodes) :
    Classes (successors edges) nodes (components nodes edges) := by
  have closed : ∀ a ∈ nodes, ∀ b ∈ successors edges a, b ∈ nodes :=
    fun a _ b edge => (inside _ (mem_successors.mp edge)).2
  have listed (a : α) :
      a ∈ nodes ↔ a ∈ (postOrder (predecessors edges) nodes (nodes.map .enter)).reverse := by
    rw [List.mem_reverse, mem_postOrder]
  exact classes_gather closed (leading_reverse_postOrder nodup inside) listed
    (List.nil_append _).symm (by simp) nodup

end Metamodel.Graph
