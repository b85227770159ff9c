/-
  RefineId.Lib.Links — following links from one record to the next.
  ════════════════════════════════════════════════════════════════════════════

  Records lie at places, and a record may name the place of the one before it.  A walk
  follows these links; it is complete when the last record names none.  The entries of the
  records are merged first come, first served.

  Main results:
    • `Follows.length_lt` : a walk that could go on is shorter than the complete one.
    • `find?_mergeFirst`  : what was merged is found as in the entries laid end to end.
-/
import Mathlib.Data.List.Basic

namespace RefineId.Lib

variable {κ β : Type*}

/-! ## §1. Walks -/

/-- **A walk along the links**: the records read from a place on, with their places, and the
    place that would come next. -/
inductive Follows (reads : κ → β → Prop) (link : β → Option κ) :
    Option κ → List (κ × β) → Option κ → Prop where
  | nil (next : Option κ) : Follows reads link next [] next
  | cons {place : κ} {record : β} {rest : List (κ × β)} {next : Option κ}
      (hread : reads place record) (hrest : Follows reads link (link record) rest next) :
      Follows reads link (some place) ((place, record) :: rest) next

variable {reads : κ → β → Prop} {link : β → Option κ}

/-- **A walk that could go on is shorter than the complete one.** -/
theorem Follows.length_lt (hreads : ∀ place a b, reads place a → reads place b → a = b)
    {start : Option κ} {walk whole : List (κ × β)} {place : κ}
    (h : Follows reads link start walk (some place))
    (hwhole : Follows reads link start whole none) : walk.length < whole.length := by
  generalize hnext : (some place : Option κ) = next at h
  induction h generalizing whole with
  | nil next =>
    subst hnext
    cases hwhole with
    | cons hread hrest => exact Nat.succ_pos _
  | cons hread hrest ih =>
    cases hwhole with
    | cons hread' hrest' =>
      rw [hreads _ _ _ hread' hread] at hrest'
      exact Nat.succ_lt_succ (ih hrest' hnext)

/-! ## §2. First come, first served -/

section
variable {ε κ' : Type*} [DecidableEq κ'] (key : ε → κ')

/-- Add the entries whose key is not there yet. -/
def mergeFirst (held : List ε) : List ε → List ε
  | [] => held
  | entry :: entries =>
    if held.any fun existing => key existing = key entry then mergeFirst held entries
    else mergeFirst (held ++ [entry]) entries

theorem mergeFirst_append (held a b : List ε) :
    mergeFirst key held (a ++ b) = mergeFirst key (mergeFirst key held a) b := by
  induction a generalizing held with
  | nil => rfl
  | cons entry a ih =>
    rw [List.cons_append, mergeFirst, mergeFirst]
    split
    · exact ih held
    · exact ih (held ++ [entry])

/-- **What was merged is found as in the entries laid end to end.** -/
theorem find?_mergeFirst (held entries : List ε) (k : κ') :
    (mergeFirst key held entries).find? (fun e => key e = k) =
      (held ++ entries).find? fun e => key e = k := by
  induction entries generalizing held with
  | nil => rw [mergeFirst, List.append_nil]
  | cons entry entries ih =>
    rw [mergeFirst]
    split
    next hheld =>
      rw [ih, List.find?_append, List.find?_append, List.find?_cons]
      by_cases hk : key entry = k
      · -- the key is held already, so neither list is looked at
        have hfound : (held.find? fun e => key e = k).isSome := by
          rw [List.find?_isSome]
          obtain ⟨existing, hmem, hsame⟩ := List.any_eq_true.mp hheld
          refine ⟨existing, hmem, ?_⟩
          rw [decide_eq_true_eq] at hsame ⊢
          exact hsame.trans hk
        obtain ⟨found, hfound⟩ := Option.isSome_iff_exists.mp hfound
        rw [hfound]
        rfl
      · simp [hk]
    · rw [ih, List.append_assoc, List.singleton_append]

end

end RefineId.Lib
