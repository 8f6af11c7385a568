import Metamodel.Graph.Reach

/-!
Strongly connected components of a graph that is given by a list of edges.

Two walks find them: one against the edges gives the order in which nodes are finished, one along
the edges, from the nodes finished last, gathers the components. So a component comes before those
that lead to it.

Results:
1. `mem_of_mem_gather`: a component holds given nodes only.
-/

namespace Metamodel.Graph

variable {α : Type} [DecidableEq α]

/-- What is left to do in a walk that finishes a node after everything that it leads to. -/
inductive Task (α : Type)
  | enter (a : α)
  | finish (a : α)

/-- The nodes reached, each after those that it leads to. -/
def postOrder (next : α → List α) (unseen : List α) : List (Task α) → List α
  | [] => []
  | .finish a :: tasks => a :: postOrder next unseen tasks
  | .enter a :: tasks =>
    if a ∈ unseen then
      postOrder next (unseen.erase a) ((next a).map .enter ++ .finish a :: tasks)
    else postOrder next unseen tasks
termination_by tasks => (unseen.length, tasks.length)
decreasing_by
  · exact Prod.Lex.right _ (by simp)
  · next h => exact Prod.Lex.left _ _ (length_erase_lt h)
  · exact Prod.Lex.right _ (by simp)

/-- What is reached from each leader in turn among the nodes that no earlier leader has reached. -/
def gather (next : α → List α) (unseen : List α) : List α → List (List α)
  | [] => []
  | leader :: leaders =>
    if leader ∈ unseen then
      let component := reach next unseen [leader]
      component :: gather next (unseen.filter (!component.contains ·)) leaders
    else gather next unseen leaders

def successors (edges : List (α × α)) (a : α) : List α :=
  (edges.filter fun e => e.1 = a).map Prod.snd

def predecessors (edges : List (α × α)) (a : α) : List α :=
  (edges.filter fun e => e.2 = a).map Prod.fst

/-- The strongly connected components of the graph with these nodes and edges. -/
def components (nodes : List α) (edges : List (α × α)) : List (List α) :=
  -- What the walk against the edges finishes last lies in a component that leads to no other.
  gather (successors edges) nodes
    (postOrder (predecessors edges) nodes (nodes.map .enter)).reverse

theorem mem_of_mem_gather {next : α → List α} {unseen leaders component : List α} {a : α}
    (hc : component ∈ gather next unseen leaders) (ha : a ∈ component) : a ∈ unseen := by
  induction leaders generalizing unseen with
  | nil => simp [gather] at hc
  | cons leader leaders ih =>
    unfold gather at hc
    split at hc
    · rcases List.mem_cons.1 hc with rfl | hc
      · exact reach_subset next unseen _ ha
      · exact (List.mem_filter.1 (ih hc)).1
    · exact ih hc

end Metamodel.Graph
