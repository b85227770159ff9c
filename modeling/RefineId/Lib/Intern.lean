/-
  RefineId.Lib.Intern — tables that give each name a place once.
  ════════════════════════════════════════════════════════════════════════════

  An append-only table: a name that is already there keeps its place, a new one goes to
  the end.  What such a table holds after any sequence of names depends on the names
  alone.

  Main results:
    • `internAll_nodup`  : no name stands twice.
    • `internAll_grows`  : what was there stays where it was.
    • `mem_internAll`    : exactly the names seen are there.
    • `length_internAll` : as many as there are distinct names.
-/
import Mathlib.Tactic
import Mathlib.Data.List.Dedup

namespace RefineId.Lib

variable {α : Type*} [DecidableEq α]

/-- The table once `a` has been seen. -/
def intern (table : List α) (a : α) : List α := if a ∈ table then table else table ++ [a]

/-- The table once all names have been seen, in order. -/
def internAll (table names : List α) : List α := names.foldl intern table

@[simp] theorem internAll_nil (table : List α) : internAll table [] = table := rfl

@[simp] theorem internAll_cons (table : List α) (a : α) (names : List α) :
    internAll table (a :: names) = internAll (intern table a) names := rfl

theorem internAll_append (table names names' : List α) :
    internAll table (names ++ names') = internAll (internAll table names) names' := by
  unfold internAll
  rw [List.foldl_append]

theorem intern_of_mem {table : List α} {a : α} (h : a ∈ table) : intern table a = table := if_pos h

theorem intern_of_not_mem {table : List α} {a : α} (h : a ∉ table) :
    intern table a = table ++ [a] := if_neg h

theorem intern_nodup {table : List α} (h : table.Nodup) (a : α) : (intern table a).Nodup := by
  by_cases ha : a ∈ table
  · rwa [intern_of_mem ha]
  · rw [intern_of_not_mem ha]
    exact List.nodup_append.mpr ⟨h, List.nodup_singleton a, by
      intro x hx y hy
      rw [List.mem_singleton.mp hy]
      exact fun heq => ha (heq ▸ hx)⟩

theorem intern_grows (table : List α) (a : α) : table <+: intern table a := by
  by_cases ha : a ∈ table
  · rw [intern_of_mem ha]
  · rw [intern_of_not_mem ha]
    exact List.prefix_append _ _

theorem mem_intern {table : List α} {a b : α} : b ∈ intern table a ↔ b ∈ table ∨ b = a := by
  by_cases ha : a ∈ table
  · rw [intern_of_mem ha]
    constructor
    · exact Or.inl
    · rintro (h | rfl)
      · exact h
      · exact ha
  · rw [intern_of_not_mem ha, List.mem_append, List.mem_singleton]

/-- **No name stands twice.** -/
theorem internAll_nodup {table : List α} (h : table.Nodup) (names : List α) :
    (internAll table names).Nodup := by
  induction names generalizing table with
  | nil => exact h
  | cons a names ih => exact ih (intern_nodup h a)

/-- **What was there stays where it was.** -/
theorem internAll_grows (table names : List α) : table <+: internAll table names := by
  induction names generalizing table with
  | nil => exact List.prefix_refl _
  | cons a names ih => exact (intern_grows table a).trans (ih (intern table a))

/-- **Exactly the names seen are there.** -/
theorem mem_internAll {table names : List α} {a : α} :
    a ∈ internAll table names ↔ a ∈ table ∨ a ∈ names := by
  induction names generalizing table with
  | nil => simp
  | cons b names ih => rw [internAll_cons, ih, mem_intern, List.mem_cons, or_assoc]

/-- **As many places as distinct names.** -/
theorem length_internAll (names : List α) : (internAll [] names).length = names.dedup.length := by
  have hperm : (internAll [] names).Perm names.dedup := by
    rw [List.perm_ext_iff_of_nodup (internAll_nodup List.nodup_nil names) (List.nodup_dedup names)]
    intro a
    rw [mem_internAll, List.mem_dedup]
    simp
  exact hperm.length_eq

end RefineId.Lib
