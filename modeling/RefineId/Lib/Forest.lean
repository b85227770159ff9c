/-
  RefineId.Lib.Forest — a forest worked off with a stack.
  ════════════════════════════════════════════════════════════════════════════

  The top of a stack is taken and its children are put on top, until the stack is empty.
  What the children of a node are is a relation, so a node may have none to be worked off.

  Main results:
    • `Forest.perm`  : the nodes taken are those on the stack and the children of all taken.
    • `Forest.reach` : every node reachable from the stack is taken.
-/
import Mathlib.Data.List.Perm.Basic

namespace RefineId.Lib

variable {ν : Type*} {expands : ν → List ν → Prop}

/-- **A stack and the nodes taken from it**, in order. -/
inductive Forest (expands : ν → List ν → Prop) : List ν → List ν → Prop where
  | nil : Forest expands [] []
  | cons {node : ν} {kids stack order : List ν} (hexpands : expands node kids)
      (hrest : Forest expands (kids ++ stack) order) :
      Forest expands (node :: stack) (node :: order)

/-- The nodes below those of a list. -/
inductive Reach (expands : ν → List ν → Prop) (roots : List ν) : ν → Prop where
  | root {node : ν} (h : node ∈ roots) : Reach expands roots node
  | kid {node child : ν} {kids : List ν} (above : Reach expands roots node)
      (hexpands : expands node kids) (h : child ∈ kids) : Reach expands roots child

/-- **Every node is taken once for each place it is listed at**: on the stack, or among the
    children of a node taken. -/
theorem Forest.perm {stack order : List ν} (h : Forest expands stack order) :
    ∃ kids, List.Forall₂ expands order kids ∧ order.Perm (stack ++ kids.flatten) := by
  induction h with
  | nil => exact ⟨[], .nil, by simp⟩
  | @cons node kids stack order hexpands _ ih =>
    obtain ⟨rest, hrest, hperm⟩ := ih
    refine ⟨kids :: rest, .cons hexpands hrest, ?_⟩
    rw [List.flatten_cons, List.cons_append]
    refine (hperm.trans ?_).cons node
    rw [List.append_assoc, ← List.append_assoc, ← List.append_assoc]
    exact (List.perm_append_comm).append_right _

theorem Forest.mem_of_stack {stack order : List ν} (h : Forest expands stack order) {node : ν}
    (hnode : node ∈ stack) : node ∈ order := by
  obtain ⟨kids, -, hperm⟩ := h.perm
  exact hperm.mem_iff.mpr (List.mem_append_left _ hnode)

/-- The node taken has its children taken too. -/
theorem Forest.expanded {stack order : List ν} (h : Forest expands stack order) {node : ν}
    (hnode : node ∈ order) : ∃ kids, expands node kids ∧ ∀ child ∈ kids, child ∈ order := by
  induction h with
  | nil => exact absurd hnode (by simp)
  | @cons top kids stack order hexpands hrest ih =>
    obtain rfl | hnode := List.mem_cons.mp hnode
    · refine ⟨kids, hexpands, fun child hchild => List.mem_cons_of_mem _ ?_⟩
      exact hrest.mem_of_stack (List.mem_append_left _ hchild)
    · obtain ⟨kids', hkids', hmem⟩ := ih hnode
      exact ⟨kids', hkids', fun child hchild => List.mem_cons_of_mem _ (hmem child hchild)⟩

/-- **What is reachable is taken.** -/
theorem Forest.reach (hfun : ∀ node kids kids', expands node kids → expands node kids' → kids = kids')
    {stack order : List ν} (h : Forest expands stack order) {node : ν}
    (hreach : Reach expands stack node) : node ∈ order := by
  induction hreach with
  | root hnode => exact h.mem_of_stack hnode
  | @kid node child kids _ hexpands hchild ih =>
    obtain ⟨kids', hkids', hmem⟩ := h.expanded ih
    exact hmem child (hfun node kids kids' hexpands hkids' ▸ hchild)

end RefineId.Lib
