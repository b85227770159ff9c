/-
  RefineId.Lib.Unfold — reading a list to its end, element by element.
  ════════════════════════════════════════════════════════════════════════════

  A reader loop takes one item off the front of its input and goes on with what is
  left, until the input is empty or the reader stops.  `unfold step` is the list of
  items such a loop sees.  It is structurally recursive on a fuel, so it evaluates;
  a step that always shortens its input makes the fuel immaterial.

  Main results:
    • `unfoldFuel_eq`  : with enough fuel the loop sees the items of `unfold`.
    • `unfold_cons`    : the loop equation, free of fuel.
-/
import Mathlib.Tactic

namespace RefineId.Lib

variable {α β : Type*}

/-- The items of a reader loop, at most `fuel` of them.  `step` gives the next item and,
    unless the loop ends there, what is left. -/
def unfoldFuel (step : List α → β × Option (List α)) : Nat → List α → List β
  | 0, _ => []
  | _ + 1, [] => []
  | fuel + 1, a :: as =>
    match step (a :: as) with
    | (item, some rest) => item :: unfoldFuel step fuel rest
    | (item, none) => [item]

/-- The items of a reader loop over `input`. -/
def unfold (step : List α → β × Option (List α)) (input : List α) : List β :=
  unfoldFuel step input.length input

/-- Every step that goes on leaves a shorter input. -/
def Shrinks (step : List α → β × Option (List α)) : Prop :=
  ∀ input item rest, step input = (item, some rest) → rest.length < input.length

section
variable {step : List α → β × Option (List α)} (hs : Shrinks step)
include hs

theorem unfoldFuel_agree (n m : Nat) (input : List α)
    (hn : input.length ≤ n) (hm : input.length ≤ m) :
    unfoldFuel step n input = unfoldFuel step m input := by
  induction n generalizing m input with
  | zero =>
    obtain rfl : input = [] := List.length_eq_zero_iff.mp (by omega)
    cases m <;> rfl
  | succ n ih =>
    cases input with
    | nil => cases m <;> rfl
    | cons a as =>
      cases m with
      | zero => simp at hm
      | succ m =>
        simp only [unfoldFuel]
        split
        next item rest h =>
          -- the step shortened the input, so both fuels still cover the rest
          have hlt := hs _ _ _ h
          rw [ih m rest (by omega) (by omega)]
        · rfl

/-- **Fuel is immaterial** once it reaches the length of the input. -/
theorem unfoldFuel_eq {fuel : Nat} {input : List α} (h : input.length ≤ fuel) :
    unfoldFuel step fuel input = unfold step input :=
  unfoldFuel_agree hs fuel input.length input h (le_refl _)

/-- The loop equation. -/
theorem unfold_cons (a : α) (as : List α) :
    unfold step (a :: as) =
      match step (a :: as) with
      | (item, some rest) => item :: unfold step rest
      | (item, none) => [item] := by
  show unfoldFuel step (as.length + 1) (a :: as) = _
  simp only [unfoldFuel]
  split
  next item rest h =>
    have hlt := hs _ _ _ h
    rw [unfoldFuel_eq hs (by simpa using Nat.le_of_lt_succ hlt)]
  · rfl

end

@[simp] theorem unfold_nil (step : List α → β × Option (List α)) : unfold step [] = [] := rfl

end RefineId.Lib
