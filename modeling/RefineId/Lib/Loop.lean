/-
  RefineId.Lib.Loop — loops with an explicit step.
  ════════════════════════════════════════════════════════════════════════════

  `loop { … return r … }` as a step function on the loop's state: a turn either ends
  the loop with a result or leaves the next state.  The loop itself runs on a fuel.

  Main results:
    • `loop_post`   : an invariant kept by every turn, with a postcondition on the turn
                      that ends, gives the postcondition of the whole loop.
    • `loop_isSome` : a measure that drops on every turn bounds the fuel the loop needs.
    • `loop_of_runs` : with such a measure, what the loop returns is what a run of its turns
                      ends with, whatever the fuel.
-/
import Mathlib.Tactic

namespace RefineId.Lib

variable {σ ρ : Type*}

/-- The outcome of one turn. -/
inductive Turn (σ ρ : Type*) where
  | done (result : ρ)
  | next (state : σ)

/-- Run turns until one ends the loop; `none` when the fuel runs out first. -/
def loop (turn : σ → Turn σ ρ) : Nat → σ → Option ρ
  | 0, _ => none
  | fuel + 1, s =>
    match turn s with
    | .done r => some r
    | .next s' => loop turn fuel s'

/-- **Invariant rule.** -/
theorem loop_post {turn : σ → Turn σ ρ} (inv : σ → Prop) (post : ρ → Prop)
    (hnext : ∀ s s', inv s → turn s = .next s' → inv s')
    (hdone : ∀ s r, inv s → turn s = .done r → post r)
    {fuel : Nat} {s : σ} {r : ρ} (hs : inv s) (h : loop turn fuel s = some r) : post r := by
  induction fuel generalizing s with
  | zero => exact absurd h (by simp [loop])
  | succ fuel ih =>
    simp only [loop] at h
    split at h
    next r' hr =>
      injection h with h
      subst h
      exact hdone s r' hs hr
    next s' hs' => exact ih (hnext s s' hs hs') h

/-- **Termination rule.** -/
theorem loop_isSome {turn : σ → Turn σ ρ} (measure : σ → Nat)
    (hdrop : ∀ s s', turn s = .next s' → measure s' < measure s)
    {fuel : Nat} {s : σ} (h : measure s < fuel) : ∃ r, loop turn fuel s = some r := by
  induction fuel generalizing s with
  | zero => exact absurd h (by omega)
  | succ fuel ih =>
    simp only [loop]
    split
    next r hr => exact ⟨r, rfl⟩
    next s' hs' =>
      have := hdrop s s' hs'
      exact ih (by omega)

/-- A run of turns from `s` to the one that ends with `r`. -/
inductive Runs (turn : σ → Turn σ ρ) : σ → ρ → Prop where
  | done {s : σ} {r : ρ} (h : turn s = .done r) : Runs turn s r
  | next {s s' : σ} {r : ρ} (h : turn s = .next s') (hrun : Runs turn s' r) : Runs turn s r

/-- **A run is what the loop does.** -/
theorem loop_of_runs {turn : σ → Turn σ ρ} (measure : σ → Nat)
    (hdrop : ∀ s s', turn s = .next s' → measure s' < measure s)
    {fuel : Nat} {s : σ} {r : ρ} (hrun : Runs turn s r) (h : measure s < fuel) :
    loop turn fuel s = some r := by
  induction hrun generalizing fuel with
  | done hdone =>
    cases fuel with
    | zero => exact absurd h (by omega)
    | succ fuel => simp only [loop, hdone]
  | @next s s' r hnext hrun ih =>
    cases fuel with
    | zero => exact absurd h (by omega)
    | succ fuel =>
      have hlt := hdrop s s' hnext
      simp only [loop, hnext]
      exact ih (by omega)

/-- What the loop returns is the end of a run. -/
theorem runs_of_loop {turn : σ → Turn σ ρ} {fuel : Nat} {s : σ} {r : ρ}
    (h : loop turn fuel s = some r) : Runs turn s r := by
  induction fuel generalizing s with
  | zero => exact absurd h (by simp [loop])
  | succ fuel ih =>
    simp only [loop] at h
    split at h
    next r' hr =>
      injection h with h
      subst h
      exact .done hr
    next s' hs' => exact .next hs' (ih h)

end RefineId.Lib
