/-
  RefineId.Lib.Prediction — rows stored as differences from a prediction.
  ════════════════════════════════════════════════════════════════════════════

  A sample is predicted from its left neighbour, from the sample above and from the one above
  and left; what is stored is the difference.  The writer knows all samples, so its residuals are
  a map over the columns; the reader has only the samples it restored before, and goes from left
  to right.  In any additive group the two undo each other, whatever the prediction.

  Main results:
    • `residuals_cons`     : the residuals from one column on.
    • `restore_residuals`  : the reader restores the row.
    • `residuals_restore`  : every row of residuals is some row's.
-/
import Mathlib.Algebra.Group.Basic
import Mathlib.Data.List.Basic

namespace RefineId.Lib

section
variable {α : Type} [AddGroup α]

/-- The residuals of a row; `left` and `corner` stand before the first column of the row and of
    the row above, and what is missing above is zero. -/
def residuals (predict : α → α → α → α) (left corner : α) (above row : List α) : List α :=
  row.mapIdx fun column sample =>
    sample - predict ((left :: row).getD column 0) (above.getD column 0)
      ((corner :: above).getD column 0)

/-- The row restored, from left to right. -/
def restore (predict : α → α → α → α) : α → α → List α → List α → List α
  | _, _, _, [] => []
  | left, corner, above, residual :: row =>
    let sample := residual + predict left (above.headD 0) corner
    sample :: restore predict sample (above.headD 0) above.tail row

variable {predict : α → α → α → α}

/-- **The residuals from one column on**: its sample is the next one's left neighbour. -/
theorem residuals_cons (left corner sample : α) (above row : List α) :
    residuals predict left corner above (sample :: row) =
      (sample - predict left (above.headD 0) corner) ::
        residuals predict sample (above.headD 0) above.tail row := by
  unfold residuals
  rw [List.mapIdx_cons]
  congr 1
  · cases above <;> rfl
  · congr 1
    funext column x
    cases above with
    | nil => cases column <;> rfl
    | cons upper above => rfl

theorem residuals_length (left corner : α) (above row : List α) :
    (residuals predict left corner above row).length = row.length := by
  rw [residuals, List.length_mapIdx]

theorem restore_length (left corner : α) (above row : List α) :
    (restore predict left corner above row).length = row.length := by
  induction row generalizing left corner above with
  | nil => rfl
  | cons residual row ih => rw [restore, List.length_cons, List.length_cons, ih]

/-- **The reader restores the row.** -/
theorem restore_residuals (left corner : α) (above row : List α) :
    restore predict left corner above (residuals predict left corner above row) = row := by
  induction row generalizing left corner above with
  | nil => rfl
  | cons sample row ih =>
    rw [residuals_cons, restore, sub_add_cancel, ih]

/-- **Every row of residuals is some row's**: that of the row restored from it. -/
theorem residuals_restore (left corner : α) (above row : List α) :
    residuals predict left corner above (restore predict left corner above row) = row := by
  induction row generalizing left corner above with
  | nil => rfl
  | cons residual row ih =>
    rw [restore, residuals_cons, add_sub_cancel_right, ih]

end

end RefineId.Lib
