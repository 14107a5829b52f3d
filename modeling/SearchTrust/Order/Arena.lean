/-
Trees whose nodes stand in a list, with the indexes of the children of each: changing
some of the nodes, and following a path of child numbers.
-/
import Mathlib.Data.List.Basic

namespace SearchTrust.Order

universe u

variable {α : Type u}

/-- Change the nodes at some indexes. -/
def updateAt (ids : List ℕ) (f : α → α) (nodes : List α) : List α :=
  nodes.mapIdx fun i node => if i ∈ ids then f node else node

@[simp] theorem length_updateAt (ids : List ℕ) (f : α → α) (nodes : List α) :
    (updateAt ids f nodes).length = nodes.length := List.length_mapIdx

theorem getElem?_updateAt (ids : List ℕ) (f : α → α) (nodes : List α) (i : ℕ) :
    (updateAt ids f nodes)[i]? = nodes[i]?.map fun node => if i ∈ ids then f node else node :=
  List.getElem?_mapIdx

theorem getElem?_updateAt_of_mem {ids : List ℕ} {f : α → α} {nodes : List α} {i : ℕ}
    (h : i ∈ ids) : (updateAt ids f nodes)[i]? = nodes[i]?.map f := by
  rw [getElem?_updateAt]
  simp only [if_pos h]

theorem getElem?_updateAt_of_notMem {ids : List ℕ} {f : α → α} {nodes : List α} {i : ℕ}
    (h : i ∉ ids) : (updateAt ids f nodes)[i]? = nodes[i]? := by
  rw [getElem?_updateAt]
  simp only [if_neg h, Option.map_id']

@[simp] theorem updateAt_nil (f : α → α) (nodes : List α) : updateAt [] f nodes = nodes := by
  refine List.ext_getElem? fun i => ?_
  rw [getElem?_updateAt_of_notMem List.not_mem_nil]

/-- Changing the node that was just added. -/
theorem updateAt_append_length (f : α → α) (nodes : List α) (node : α) :
    updateAt [nodes.length] f (nodes ++ [node]) = nodes ++ [f node] := by
  refine List.ext_getElem? fun i => ?_
  rcases Nat.lt_trichotomy i nodes.length with h | rfl | h
  · rw [getElem?_updateAt_of_notMem (by simp; omega), List.getElem?_append_left h,
      List.getElem?_append_left h]
  · rw [getElem?_updateAt_of_mem (List.mem_singleton_self _)]
    simp
  · rw [List.getElem?_eq_none (by simp; omega), List.getElem?_eq_none (by simp; omega)]

variable (children : α → List ℕ)

/-- The index of the node at the end of a path of child numbers. -/
def follow (nodes : List α) (i : ℕ) : List ℕ → Option ℕ
  | [] => some i
  | k :: path =>
      nodes[i]?.bind fun node => (children node)[k]?.bind fun child => follow nodes child path

variable {children}

theorem follow_append {nodes : List α} {i j : ℕ} {path more : List ℕ}
    (h : follow children nodes i path = some j) :
    follow children nodes i (path ++ more) = follow children nodes j more := by
  induction path generalizing i with
  | nil =>
      cases h
      rfl
  | cons k path ih =>
      rw [follow] at h
      obtain ⟨node, hnode, h⟩ := Option.bind_eq_some_iff.1 h
      obtain ⟨child, hchild, h⟩ := Option.bind_eq_some_iff.1 h
      rw [List.cons_append, follow, hnode, Option.bind_some, hchild, Option.bind_some]
      exact ih h

theorem follow_snoc {nodes : List α} {i j k child : ℕ} {path : List ℕ} {node : α}
    (h : follow children nodes i path = some j) (hnode : nodes[j]? = some node)
    (hchild : (children node)[k]? = some child) :
    follow children nodes i (path ++ [k]) = some child := by
  rw [follow_append h, follow, hnode, Option.bind_some, hchild]
  rfl

end SearchTrust.Order
