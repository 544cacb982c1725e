import Mathlib.Algebra.GroupWithZero.Nat
import Mathlib.Data.List.Perm.Basic

/-!
# Walks of a forest

A small library on finite forests over an arbitrary type of nodes: what stands under some nodes, in
the order of a recursion and in the order of a queue.

## Main definitions

* `Forest.preorder`: a node, then what is under it, then its later siblings.
* `Forest.breadthFirst`: a queue that a node leaves for its children.

## Main results

* `Forest.breadthFirst_perm`: both walks visit the same nodes, each as often.
* `Forest.preorder_perm`: the nodes, and what is under their children.
-/

/-- Nodes with finitely many children each, and finitely many nodes under each. -/
structure Forest (α : Type*) where
  children : α → List α
  weight : α → ℕ
  /-- A node weighs more than its children together. -/
  lighter : ∀ a, ((children a).map weight).sum < weight a

namespace Forest

variable {α : Type*} (F : Forest α)

/-- The weight of some nodes. -/
def total (nodes : List α) : ℕ := (nodes.map F.weight).sum

variable {F} {a : α} {nodes rest : List α}

theorem total_cons : F.total (a :: rest) = F.weight a + F.total rest := List.sum_cons

theorem total_append : F.total (nodes ++ rest) = F.total nodes + F.total rest := by
  rw [total, List.map_append, List.sum_append, total, total]

theorem total_children_lt : F.total (F.children a) < F.weight a := F.lighter a

variable (F)

/-- The nodes under some nodes and these, in the order of a recursion. -/
def preorder (nodes : List α) : List α :=
  match nodes with
  | [] => []
  | a :: rest => a :: (preorder (F.children a) ++ preorder rest)
termination_by F.total nodes
decreasing_by
  · have := F.total_children_lt (a := a)
    rw [total_cons]
    omega
  · have := F.total_children_lt (a := a)
    rw [total_cons]
    omega

/-- The nodes under some nodes and these, in the order of a queue. -/
def breadthFirst (queue : List α) : List α :=
  match queue with
  | [] => []
  | a :: rest => a :: breadthFirst (rest ++ F.children a)
termination_by F.total queue
decreasing_by
  have := F.total_children_lt (a := a)
  rw [total_append, total_cons]
  omega

variable {F}

theorem preorder_nil : F.preorder [] = [] := by
  rw [preorder]

theorem preorder_cons :
    F.preorder (a :: rest) = a :: (F.preorder (F.children a) ++ F.preorder rest) := by
  rw [preorder]

theorem preorder_append : F.preorder (nodes ++ rest) = F.preorder nodes ++ F.preorder rest := by
  induction nodes with
  | nil => rw [List.nil_append, preorder_nil, List.nil_append]
  | cons a nodes ih =>
      rw [List.cons_append, preorder_cons, preorder_cons, ih, List.cons_append, List.append_assoc]

theorem breadthFirst_nil : F.breadthFirst [] = [] := by
  rw [breadthFirst]

theorem breadthFirst_cons :
    F.breadthFirst (a :: rest) = a :: F.breadthFirst (rest ++ F.children a) := by
  rw [breadthFirst]

/-- **Both walks visit the same nodes**, each as often. -/
theorem breadthFirst_perm (queue : List α) : (F.breadthFirst queue).Perm (F.preorder queue) := by
  induction queue using breadthFirst.induct F with
  | case1 => rw [breadthFirst_nil, preorder_nil]
  | case2 a rest ih =>
      rw [breadthFirst_cons, preorder_cons]
      rw [preorder_append] at ih
      exact (ih.trans List.perm_append_comm).cons a

/-- **What is under some nodes**: these, and what is under their children. -/
theorem preorder_perm (nodes : List α) :
    (F.preorder nodes).Perm (nodes ++ F.preorder (nodes.flatMap F.children)) := by
  induction nodes with
  | nil => rw [List.flatMap_nil, preorder_nil, List.append_nil]
  | cons a nodes ih =>
      rw [preorder_cons, List.flatMap_cons, preorder_append, List.cons_append]
      refine List.Perm.cons a ((ih.append_left _).trans ?_)
      rw [← List.append_assoc, ← List.append_assoc]
      exact List.perm_append_comm.append_right _

end Forest
