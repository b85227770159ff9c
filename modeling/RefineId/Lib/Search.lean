/-
  RefineId.Lib.Search — finding one list inside another.
  ════════════════════════════════════════════════════════════════════════════

  `str::find`, `str::split_once` and `str::replace`, over lists of anything with
  decidable equality: the first occurrence from the left, and what stands around it.

  Main results:
    • `splitOnce_eq`   : the two parts and the pattern make up the text.
    • `splitOnce_char` : a single character splits at its first occurrence.
-/
import Mathlib.Tactic

namespace RefineId.Lib

variable {α : Type} [DecidableEq α]

/-- What stands before and after the first occurrence of `pat`. -/
def splitOnce (pat : List α) : List α → Option (List α × List α)
  | [] => if pat = [] then some ([], []) else none
  | a :: as =>
    if pat.isPrefixOf (a :: as) then some ([], (a :: as).drop pat.length)
    else (splitOnce pat as).map fun (before, after) => (a :: before, after)

/-- Replace what `splitOnce` finds, at most `fuel` times. -/
def replaceFuel (pat new : List α) : Nat → List α → List α
  | 0, text => text
  | fuel + 1, text =>
    match splitOnce pat text with
    | none => text
    | some (before, after) => before ++ new ++ replaceFuel pat new fuel after

/-- Replace every occurrence of a nonempty pattern, from the left. -/
def replaceAll (pat new text : List α) : List α := replaceFuel pat new text.length text

/-- What follows the last occurrence of `a`; the whole text when there is none. -/
def afterLast (a : α) (text : List α) : List α :=
  (text.reverse.takeWhile fun b => b ≠ a).reverse

theorem splitOnce_eq {pat text before after : List α}
    (h : splitOnce pat text = some (before, after)) : text = before ++ pat ++ after := by
  induction text generalizing before with
  | nil =>
    unfold splitOnce at h
    split at h
    next hpat =>
      injection h with h
      injection h with h1 h2
      rw [hpat, ← h1, ← h2]
      rfl
    · exact absurd h (by simp)
  | cons a as ih =>
    unfold splitOnce at h
    split at h
    next hpre =>
      injection h with h
      injection h with h1 h2
      obtain ⟨t, ht⟩ := List.isPrefixOf_iff_prefix.mp hpre
      rw [← h1, ← h2, ← ht]
      simp
    · simp only [Option.map_eq_some_iff] at h
      obtain ⟨⟨b, r⟩, hb, heq⟩ := h
      injection heq with h1 h2
      subst h1 h2
      rw [ih hb]
      rfl

theorem splitOnce_length {pat text before after : List α}
    (h : splitOnce pat text = some (before, after)) :
    before.length + pat.length + after.length = text.length := by
  rw [splitOnce_eq h]
  simp only [List.length_append]

theorem splitOnce_char {a : α} {before : List α} (after : List α) (h : a ∉ before) :
    splitOnce [a] (before ++ a :: after) = some (before, after) := by
  induction before with
  | nil => simp [splitOnce]
  | cons b bs ih =>
    have hne : a ≠ b := fun hab => h (hab ▸ List.mem_cons_self)
    have hbs : a ∉ bs := fun hmem => h (List.mem_cons_of_mem _ hmem)
    simp [splitOnce, hne, ih hbs]

theorem splitOnce_none_of_head {a : α} {pat text : List α} (h : a ∉ text) :
    splitOnce (a :: pat) text = none := by
  induction text with
  | nil => simp [splitOnce]
  | cons b bs ih =>
    have hne : a ≠ b := fun hab => h (hab ▸ List.mem_cons_self)
    have hbs : a ∉ bs := fun hmem => h (List.mem_cons_of_mem _ hmem)
    simp [splitOnce, hne, ih hbs]

/-- A pair splits at the first occurrence of its second character. -/
theorem splitOnce_pair {a b : α} {before : List α} (after : List α) (hab : a ≠ b)
    (h : b ∉ before) : splitOnce [a, b] (before ++ a :: b :: after) = some (before, after) := by
  induction before with
  | nil => simp [splitOnce]
  | cons c cs ih =>
    have hcs : b ∉ cs := fun hmem => h (List.mem_cons_of_mem _ hmem)
    have hpre : [a, b].isPrefixOf (c :: (cs ++ a :: b :: after)) = false := by
      cases cs with
      | nil =>
        have hba : (b == a) = false := by simpa using Ne.symm hab
        show ((a == c) && ((b == a) && _)) = false
        rw [hba]
        simp
      | cons d ds =>
        have hbd : (b == d) = false := by
          simpa using fun hbd : b = d => hcs (hbd ▸ List.mem_cons_self)
        show ((a == c) && ((b == d) && _)) = false
        rw [hbd]
        simp
    show splitOnce [a, b] (c :: (cs ++ a :: b :: after)) = _
    rw [splitOnce, hpre, ih hcs]
    rfl

theorem splitOnce_second {a b : α} {pat : List α} (rest : List α) (h : b ≠ a) :
    splitOnce (a :: pat) (b :: (a :: pat ++ rest)) = some ([b], rest) := by
  have hab : ¬ a = b := fun hab => h hab.symm
  simp [splitOnce, hab]

end RefineId.Lib
