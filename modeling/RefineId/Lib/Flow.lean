/-
  RefineId.Lib.Flow — programs that talk to an outside party, and their traces.
  ════════════════════════════════════════════════════════════════════════════

  A `Flow` runs against a history of events, newest first: it may add events, and it
  ends in a value or an error.  The party it talks to is whatever decides the events, so
  a property proved for every flow step holds against every behaviour of that party.

  Two operators speak about histories: `Always P` (every event, with the history it was
  added to, satisfies `P`) and `Since ok stop` (looking back from now, an `ok` event
  comes before any `stop` event).

  Main results:
    • `Triple.bind`, `Triple.pure`, `Triple.throw`, `Triple.weaken` : rules of pre- and
      postconditions for flows.
    • `since_cons`, `always_cons` : the operators under one more event.
-/
import Mathlib.Tactic

namespace RefineId.Lib

variable {τ ε α β : Type}

/-! ## §1. Flows -/

/-- A program over a history of events, newest first. -/
def Flow (τ ε α : Type) : Type := List τ → Except ε α × List τ

namespace Flow

def pure (a : α) : Flow τ ε α := fun h => (.ok a, h)

def bind (m : Flow τ ε α) (f : α → Flow τ ε β) : Flow τ ε β := fun h =>
  match m h with
  | (.ok a, h') => f a h'
  | (.error e, h') => (.error e, h')

/-- End with an error. -/
def throw (e : ε) : Flow τ ε α := fun h => (.error e, h)

/-- Take a result that needs no event. -/
def lift (r : Except ε α) : Flow τ ε α := fun h => (r, h)

/-- `result.ok()`: run, and turn an error into `none`. -/
def attempt (m : Flow τ ε α) : Flow τ ε (Option α) := fun h =>
  match m h with
  | (.ok a, h') => (.ok (some a), h')
  | (.error _, h') => (.ok none, h')

/-- `result.map_err(f)`. -/
def mapError {ε' : Type} (f : ε → ε') (m : Flow τ ε α) : Flow τ ε' α := fun h =>
  ((m h).1.mapError f, (m h).2)

instance : Monad (Flow τ ε) where
  pure := Flow.pure
  bind := Flow.bind

end Flow

/-! ## §2. Pre- and postconditions -/

/-- From every history in `pre`, the result and the history after satisfy `post`. -/
def Triple (pre : List τ → Prop) (m : Flow τ ε α) (post : Except ε α → List τ → Prop) : Prop :=
  ∀ h, pre h → post (m h).1 (m h).2

namespace Triple

theorem pure {pre : List τ → Prop} {post : Except ε α → List τ → Prop} {a : α}
    (h : ∀ t, pre t → post (.ok a) t) : Triple pre (Pure.pure a : Flow τ ε α) post := h

theorem throw {pre : List τ → Prop} {post : Except ε α → List τ → Prop} {e : ε}
    (h : ∀ t, pre t → post (.error e) t) : Triple pre (Flow.throw e) post := h

/-- **Sequencing**: `mid` says what the first part leaves when it returns, and its errors
    already satisfy the postcondition. -/
theorem bind {pre : List τ → Prop} {m : Flow τ ε α} {f : α → Flow τ ε β}
    {post : Except ε β → List τ → Prop} (mid : α → List τ → Prop)
    (hm : Triple pre m fun r t => match r with
      | .ok a => mid a t
      | .error e => post (.error e) t)
    (hf : ∀ a, Triple (mid a) (f a) post) : Triple pre (m >>= f) post := by
  intro h hpre
  have h1 := hm h hpre
  show post (Flow.bind m f h).1 (Flow.bind m f h).2
  unfold Flow.bind
  cases hr : m h with
  | mk r t =>
    rw [hr] at h1
    cases r with
    | ok a => exact hf a t h1
    | error e => exact h1

/-- A first part of which nothing is used. -/
theorem skip {m : Flow τ ε α} {f : α → Flow τ ε β} {post : Except ε β → List τ → Prop}
    (herr : ∀ e t, post (.error e) t) (hf : ∀ a, Triple (fun _ => True) (f a) post) :
    Triple (fun _ => True) (m >>= f) post := by
  refine bind (fun _ _ => True) (fun h _ => ?_) hf
  cases (m h).1 with
  | ok a => trivial
  | error e => exact herr e _

theorem weaken {pre pre' : List τ → Prop} {m : Flow τ ε α}
    {post post' : Except ε α → List τ → Prop} (hm : Triple pre' m post')
    (hpre : ∀ t, pre t → pre' t) (hpost : ∀ r t, post' r t → post r t) : Triple pre m post :=
  fun h hp => hpost _ _ (hm h (hpre h hp))

/-- Two postconditions of one flow, the second from any history. -/
theorem and {pre : List τ → Prop} {m : Flow τ ε α} {post post' : Except ε α → List τ → Prop}
    (h : Triple pre m post) (h' : Triple (fun _ => True) m post') :
    Triple pre m fun r t => post r t ∧ post' r t :=
  fun t ht => ⟨h t ht, h' t trivial⟩

theorem lift {pre : List τ → Prop} {post : Except ε α → List τ → Prop} {r : Except ε α}
    (h : ∀ t, pre t → post r t) : Triple pre (Flow.lift r) post := h

theorem attempt {pre : List τ → Prop} {m : Flow τ ε α}
    {post : Except ε (Option α) → List τ → Prop}
    (hm : Triple pre m fun r t => match r with
      | .ok a => post (.ok (some a)) t
      | .error _ => post (.ok none) t) : Triple pre (Flow.attempt m) post := by
  intro h hpre
  have h1 := hm h hpre
  unfold Flow.attempt
  cases hr : m h with
  | mk r t =>
    rw [hr] at h1
    cases r <;> exact h1

theorem mapError {ε' : Type} {pre : List τ → Prop} {m : Flow τ ε α} {g : ε → ε'}
    {post : Except ε' α → List τ → Prop}
    (hm : Triple pre m fun r t => post (r.mapError g) t) :
    Triple pre (Flow.mapError g m) post := hm

end Triple

/-! ## §3. Looking back -/

/-- Every event satisfies `P` at the history it was added to. -/
def Always (P : τ → List τ → Prop) : List τ → Prop
  | [] => True
  | e :: h => P e h ∧ Always P h

/-- Looking back from now, an `ok` event comes before any `stop` event. -/
def Since (ok stop : τ → Prop) : List τ → Prop
  | [] => False
  | e :: h => ok e ∨ ¬ stop e ∧ Since ok stop h

@[simp] theorem always_cons {P : τ → List τ → Prop} {e : τ} {h : List τ} :
    Always P (e :: h) ↔ P e h ∧ Always P h := Iff.rfl

@[simp] theorem since_cons {ok stop : τ → Prop} {e : τ} {h : List τ} :
    Since ok stop (e :: h) ↔ ok e ∨ ¬ stop e ∧ Since ok stop h := Iff.rfl

theorem since_mono {ok ok' stop : τ → Prop} {h : List τ} (hok : ∀ e, ok e → ok' e)
    (hh : Since ok stop h) : Since ok' stop h := by
  induction h with
  | nil => exact hh
  | cons e h ih =>
    rcases hh with he | ⟨hstop, hh⟩
    · exact .inl (hok e he)
    · exact .inr ⟨hstop, ih hh⟩

/-- **`Since`, spelled out**: an `ok` event with no `stop` event after it. -/
theorem since_iff {ok stop : τ → Prop} {h : List τ} :
    Since ok stop h ↔ ∃ later e earlier, h = later ++ e :: earlier ∧ ok e ∧
      ∀ x ∈ later, ¬ stop x := by
  induction h with
  | nil => simp [Since]
  | cons e h ih =>
    rw [since_cons, ih]
    constructor
    · rintro (he | ⟨hstop, later, x, earlier, rfl, hx, hl⟩)
      · exact ⟨[], e, h, rfl, he, by simp⟩
      · refine ⟨e :: later, x, earlier, rfl, hx, ?_⟩
        intro y hy
        rcases List.mem_cons.mp hy with rfl | hy
        · exact hstop
        · exact hl y hy
    · intro hgiven
      obtain ⟨later, x, earlier, heq, hx, hl⟩ := hgiven
      cases later with
      | nil =>
        injection heq with h1 _
        subst h1
        exact .inl hx
      | cons y later =>
        injection heq with h1 h2
        subst h1
        exact .inr ⟨hl e (by simp), later, x, earlier, h2, hx, fun z hz => hl z (by simp [hz])⟩

end RefineId.Lib
