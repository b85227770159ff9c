/-
  RefineId.Lib.Run — runs of a machine, and what a guarded run keeps.
  ════════════════════════════════════════════════════════════════════════════

  A machine that takes one event after the other is a fold.  What a run keeps is
  often conditional: it holds as long as no event of a certain kind occurs, where
  the kind may depend on the state the event finds.  `Along ok step s es` says that
  every event of the run meets `ok` in the state it finds.

  Main results:
    • `run_append`      : a run is split at any point.
    • `along_append`    : so is a guarded run.
    • `run_invariant`   : what every step keeps, every run keeps.
    • `run_along`       : the same under a guard.
-/
import Mathlib.Tactic

namespace RefineId.Lib

variable {S E : Type*}

/-- The state after the events, in order. -/
def run (step : S → E → S) (s : S) (events : List E) : S := events.foldl step s

section
variable (step : S → E → S)

@[simp] theorem run_nil (s : S) : run step s [] = s := rfl

@[simp] theorem run_cons (s : S) (e : E) (es : List E) :
    run step s (e :: es) = run step (step s e) es := rfl

theorem run_append (s : S) (es es' : List E) :
    run step s (es ++ es') = run step (run step s es) es' := by
  unfold run
  rw [List.foldl_append]

theorem run_concat (s : S) (es : List E) (e : E) :
    run step s (es ++ [e]) = step (run step s es) e := by
  rw [run_append, run_cons, run_nil]

/-- Every event of the run meets `ok` in the state it finds. -/
def Along (ok : S → E → Prop) : S → List E → Prop
  | _, [] => True
  | s, e :: es => ok s e ∧ Along ok (step s e) es

instance decidableAlong (ok : S → E → Prop) [∀ s e, Decidable (ok s e)] :
    ∀ (s : S) (es : List E), Decidable (Along step ok s es)
  | _, [] => isTrue trivial
  | s, e :: es =>
    have := decidableAlong ok (step s e) es
    inferInstanceAs (Decidable (ok s e ∧ Along step ok (step s e) es))

theorem along_append (ok : S → E → Prop) (s : S) (es es' : List E) :
    Along step ok s (es ++ es') ↔ Along step ok s es ∧ Along step ok (run step s es) es' := by
  induction es generalizing s with
  | nil => simp [Along]
  | cons e es ih => simp only [List.cons_append, Along, run_cons, ih, and_assoc]

end

section
variable {step : S → E → S} {P : S → Prop}

/-- **Invariant rule.** -/
theorem run_invariant (hstep : ∀ s e, P s → P (step s e)) {s : S} (h : P s) (es : List E) :
    P (run step s es) := by
  induction es generalizing s with
  | nil => exact h
  | cons e es ih => exact ih (hstep s e h)

/-- **Invariant rule under a guard.** -/
theorem run_along {ok : S → E → Prop} (hstep : ∀ s e, P s → ok s e → P (step s e)) {s : S}
    (h : P s) {es : List E} (halong : Along step ok s es) : P (run step s es) := by
  induction es generalizing s with
  | nil => exact h
  | cons e es ih => exact ih (hstep s e h halong.1) halong.2

end

end RefineId.Lib
