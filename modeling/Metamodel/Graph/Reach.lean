/-!
Walks in a graph that is given by its successor function and a finite list of nodes.

Both functions erase a node from the list of unseen ones when they enter it, so cycles need no
special care and the list is what bounds the recursion. Nodes outside the list are never entered.

Results:
1. `reach_subset`, `nodup_reach`: a node is reached at most once, and only from the given list.
-/

namespace Metamodel.Graph

variable {α : Type} [DecidableEq α]

theorem length_erase_lt {unseen : List α} {a : α} (h : a ∈ unseen) :
    (unseen.erase a).length < unseen.length := by
  rw [List.length_erase_of_mem h]
  have := List.length_pos_of_mem h
  omega

/-- The nodes reached from `pending`, each once, in the order of a depth-first walk. -/
def reach (next : α → List α) (unseen : List α) : List α → List α
  | [] => []
  | a :: pending =>
    if a ∈ unseen then a :: reach next (unseen.erase a) (next a ++ pending)
    else reach next unseen pending
termination_by pending => (unseen.length, pending.length)
decreasing_by
  · next h => exact Prod.Lex.left _ _ (length_erase_lt h)
  · exact Prod.Lex.right _ (by simp)

/-- The number of nodes on the longest path from `a` that stays in `unseen` and repeats no node. -/
def longestPath (next : α → List α) (unseen : List α) (a : α) : Nat :=
  if a ∈ unseen then
    1 + (((next a).map fun b => longestPath next (unseen.erase a) b).max?.getD 0)
  else 0
termination_by unseen.length
decreasing_by
  next h => exact length_erase_lt h

theorem reach_subset (next : α → List α) (unseen pending : List α) :
    reach next unseen pending ⊆ unseen := by
  fun_induction reach next unseen pending with
  | case1 => simp
  | case2 unseen a pending h ih =>
    intro x hx
    rcases List.mem_cons.1 hx with rfl | hx
    · exact h
    · exact List.mem_of_mem_erase (ih hx)
  | case3 unseen a pending h ih => exact ih

theorem nodup_reach {next : α → List α} {unseen : List α} (pending : List α)
    (h : unseen.Nodup) : (reach next unseen pending).Nodup := by
  fun_induction reach next unseen pending with
  | case1 => simp
  | case2 unseen a pending ha ih =>
    refine List.nodup_cons.2 ⟨fun hx => ?_, ih (h.erase a)⟩
    exact h.not_mem_erase (reach_subset next _ _ hx)
  | case3 unseen a pending _ ih => exact ih h

end Metamodel.Graph
