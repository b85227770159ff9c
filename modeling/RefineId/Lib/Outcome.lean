/-
  RefineId.Lib.Outcome — taking fallible computations apart.
  ════════════════════════════════════════════════════════════════════════════

  A checker in `Except` is a chain of steps each of which may end it.  That the whole
  chain returned says that every step did; the lemmas here read that off step by step.

  Main results:
    • `bind_eq_ok`, `ensure_eq_ok`, `okOr_eq_ok`, `mapError_eq_ok_iff` : what an `ok`
      result says about each kind of step.
    • `collect_eq_ok` : a collected list is the list of its items' values.
    • `mapM_cons_eq_ok`, `mapM_bind_eq_ok` : a fallible pass over a list, step by step.
-/
import Mathlib.Tactic

namespace RefineId.Lib

variable {ε ε' α β : Type}

/-! ## §1. Steps -/

/-- Go on if `c` holds. -/
def ensure (c : Bool) (e : ε) : Except ε Unit := if c then .ok () else .error e

/-- `opt.ok_or(e)`. -/
def okOr (e : ε) : Option α → Except ε α
  | some a => .ok a
  | none => .error e

/-- Collect the values of a list of results; the first error ends it. -/
def collect (f : ε → ε') : List (Except ε α) → Except ε' (List α)
  | [] => .ok []
  | .error e :: _ => .error (f e)
  | .ok a :: rest => do
    let tail ← collect f rest
    return a :: tail

/-! ## §2. What `ok` says -/

theorem bind_eq_ok {x : Except ε α} {f : α → Except ε β} {b : β} :
    (x >>= f) = .ok b ↔ ∃ a, x = .ok a ∧ f a = .ok b := by
  cases x with
  | error e => simp [bind, Except.bind]
  | ok a => simp [bind, Except.bind]

theorem pure_eq_ok {a b : α} : (pure a : Except ε α) = .ok b ↔ a = b := by
  simp [pure, Except.pure]

theorem ensure_eq_ok {c : Bool} {e : ε} {u : Unit} : ensure c e = .ok u ↔ c = true := by
  unfold ensure
  cases c <;> simp

theorem ensure_bind {c : Bool} {e : ε} {f : Unit → Except ε β} :
    (ensure c e >>= f) = if c then f () else .error e := by
  unfold ensure
  cases c <;> rfl

theorem okOr_eq_ok {e : ε} {o : Option α} {a : α} : okOr e o = .ok a ↔ o = some a := by
  cases o <;> simp [okOr]

theorem toOption_eq_some {x : Except ε α} {a : α} : x.toOption = some a ↔ x = .ok a := by
  cases x <;> simp [Except.toOption]

theorem mapError_eq_ok_iff {f : ε → ε'} {x : Except ε α} {a : α} :
    x.mapError f = .ok a ↔ x = .ok a := by
  cases x <;> simp [Except.mapError]

theorem collect_eq_ok {f : ε → ε'} {items : List (Except ε α)} {as : List α} :
    collect f items = .ok as ↔ items = as.map .ok := by
  induction items generalizing as with
  | nil => cases as <;> simp [collect]
  | cons item rest ih =>
    cases item with
    | error e =>
      cases as <;> simp [collect]
    | ok a =>
      simp only [collect, bind_eq_ok, pure_eq_ok, ih]
      constructor
      · intro ⟨tail, htail, has⟩
        rw [htail, ← has]
        rfl
      · intro h
        cases as with
        | nil => exact absurd h (by simp)
        | cons b bs =>
          rw [List.map_cons] at h
          injection h with h1 h2
          injection h1 with h1
          exact ⟨bs, h2, by rw [h1]⟩

/-! ## §3. Passes over a list -/

theorem mapM_cons_eq_ok {f : α → Except ε β} {a : α} {as : List α} {bs : List β} :
    (a :: as).mapM f = .ok bs ↔ ∃ b rest, f a = .ok b ∧ as.mapM f = .ok rest ∧ bs = b :: rest := by
  rw [List.mapM_cons]
  simp only [bind_eq_ok, pure_eq_ok]
  constructor
  · intro hx
    obtain ⟨b, hb, rest, hrest, rfl⟩ := hx
    exact ⟨b, rest, hb, hrest, rfl⟩
  · intro hx
    obtain ⟨b, rest, hb, hrest, rfl⟩ := hx
    exact ⟨b, hb, rest, hrest, rfl⟩

/-- Two passes over a list are one. -/
theorem mapM_bind_eq_ok {γ : Type} {f : α → Except ε β} {g : β → Except ε γ} {as : List α}
    {cs : List γ} : (as.mapM fun a => f a >>= g) = .ok cs ↔
      ∃ bs, as.mapM f = .ok bs ∧ bs.mapM g = .ok cs := by
  induction as generalizing cs with
  | nil => simp [pure_eq_ok]
  | cons a as ih =>
    rw [mapM_cons_eq_ok]
    constructor
    · intro hx
      obtain ⟨c, rest, hc, hrest, rfl⟩ := hx
      obtain ⟨b, hb, hc⟩ := bind_eq_ok.mp hc
      obtain ⟨bs, hbs, hrest⟩ := ih.mp hrest
      exact ⟨b :: bs, mapM_cons_eq_ok.mpr ⟨b, bs, hb, hbs, rfl⟩,
        mapM_cons_eq_ok.mpr ⟨c, rest, hc, hrest, rfl⟩⟩
    · intro hx
      obtain ⟨_, hall, hcs⟩ := hx
      obtain ⟨b, bs, hb, hbs, rfl⟩ := mapM_cons_eq_ok.mp hall
      obtain ⟨c, rest, hc, hrest, rfl⟩ := mapM_cons_eq_ok.mp hcs
      exact ⟨c, rest, bind_eq_ok.mpr ⟨b, hb, hc⟩, ih.mpr ⟨bs, hbs, hrest⟩, rfl⟩

theorem mapM_length {f : α → Except ε β} {as : List α} {bs : List β} (h : as.mapM f = .ok bs) :
    bs.length = as.length := by
  induction as generalizing bs with
  | nil =>
    have hnil : (pure [] : Except ε (List β)) = .ok bs := h
    rw [← pure_eq_ok.mp hnil]
    rfl
  | cons a as ih =>
    obtain ⟨b, rest, _, hrest, rfl⟩ := mapM_cons_eq_ok.mp h
    rw [List.length_cons, List.length_cons, ih hrest]

end RefineId.Lib
