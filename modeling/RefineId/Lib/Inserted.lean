/-
  RefineId.Lib.Inserted — lists with further elements in between.
  ════════════════════════════════════════════════════════════════════════════

  A search that takes the first element it likes is not disturbed by further elements that it
  does not like, nor by those that stand behind one that it likes.

  Main results:
    • `Inserted.find?_eq` : the search finds the same.
-/
import Mathlib.Data.List.Basic

namespace RefineId.Lib

variable {α : Type*}

/-- The second list is the first with further elements in between; `Allowed before x` lets `x`
    stand behind the elements `before`, those of the argument included. -/
inductive Inserted (Allowed : List α → α → Prop) : List α → List α → List α → Prop
  | nil (before : List α) : Inserted Allowed before [] []
  | keep {before l l' : List α} (a : α) (h : Inserted Allowed (before ++ [a]) l l') :
      Inserted Allowed before (a :: l) (a :: l')
  | insert {before l l' : List α} {x : α} (hx : Allowed before x)
      (h : Inserted Allowed before l l') : Inserted Allowed before l (x :: l')

namespace Inserted

variable {Allowed : List α → α → Prop} {before l l' : List α}

theorem subset (h : Inserted Allowed before l l') : l ⊆ l' := by
  induction h with
  | nil before => exact List.Subset.refl []
  | keep a _ ih => exact List.cons_subset_cons a ih
  | @insert before l l' x _ _ ih => exact List.subset_cons_of_subset x ih

/-- **A search finds the same**, when an inserted element that could be taken stands behind
    one that could be. -/
theorem find?_eq {p : α → Bool} (h : Inserted Allowed before l l')
    (hallowed : ∀ before x, Allowed before x → p x = true → ∃ a ∈ before, p a = true)
    (hbefore : ∀ a ∈ before, p a = false) : l'.find? p = l.find? p := by
  induction h with
  | nil before => rfl
  | @keep before l l' a _ ih =>
    rw [List.find?_cons, List.find?_cons]
    cases ha : p a with
    | true => rfl
    | false =>
      refine ih ?_
      intro b hb
      obtain hb | hb := List.mem_append.mp hb
      · exact hbefore b hb
      · rwa [List.mem_singleton.mp hb]
  | @insert before l l' x hx _ ih =>
    have hpx : p x = false := by
      by_contra htrue
      obtain ⟨a, ha, hpa⟩ := hallowed before x hx (Bool.not_eq_false _ ▸ htrue)
      rw [hbefore a ha] at hpa
      cases hpa
    rw [List.find?_cons, hpx]
    exact ih hbefore

end Inserted

end RefineId.Lib
