/-
  RefineId.Lib.Upsert — a keyed store kept as a list.
  ════════════════════════════════════════════════════════════════════════════

  A small map kept as a list and scanned by key: `upsert` overwrites the entry of its
  key in place, or appends.  Its abstract view is the partial function `lookup`.

  Main results:
    • `lookup_upsert`     : `upsert` is a point update of that function.
    • `keys_upsert_nodup` : it keeps at most one entry per key.
    • `lookup_upserts`    : after a run of upserts a key holds the last entry written
                            under it.
-/
import Mathlib.Tactic

namespace RefineId.Lib

variable {ε κ : Type*} [DecidableEq κ] (key : ε → κ)

/-- Overwrite the entry with the key of `new`, or append it. -/
def upsert (new : ε) : List ε → List ε
  | [] => [new]
  | e :: es => if key e = key new then new :: es else e :: upsert new es

/-- The first entry under `k`. -/
def lookup (k : κ) (es : List ε) : Option ε := es.find? fun e => key e = k

theorem lookup_key {k : κ} {es : List ε} {e : ε} (h : lookup key k es = some e) : key e = k := by
  simpa using List.find?_some h

/-- **Point update.** -/
theorem lookup_upsert (k : κ) (new : ε) (es : List ε) :
    lookup key k (upsert key new es) = if key new = k then some new else lookup key k es := by
  induction es with
  | nil => by_cases h : key new = k <;> simp [upsert, lookup, h]
  | cons e es ih =>
    simp only [upsert]
    by_cases he : key e = key new
    · rw [if_pos he]
      by_cases h : key new = k
      · simp [lookup, h]
      · have hek : key e ≠ k := fun hk => h (he ▸ hk)
        simp [lookup, h, hek]
    · rw [if_neg he]
      by_cases hek : key e = k
      · have h : key new ≠ k := fun hk => he (hek.trans hk.symm)
        simp [lookup, h, hek]
      · have hcons : ∀ l : List ε, lookup key k (e :: l) = lookup key k l := by
          intro l
          simp [lookup, hek]
        rw [hcons, hcons, ih]

theorem mem_keys_upsert {k : κ} {new : ε} {es : List ε}
    (h : k ∈ (upsert key new es).map key) : k = key new ∨ k ∈ es.map key := by
  induction es with
  | nil => simpa [upsert] using h
  | cons e es ih =>
    simp only [upsert] at h
    split at h
    · rcases List.mem_cons.mp h with h | h
      · exact .inl h
      · exact .inr (List.mem_cons_of_mem _ h)
    · rcases List.mem_cons.mp h with h | h
      · exact .inr (by simp [h])
      · exact (ih h).imp_right (List.mem_cons_of_mem _)

/-- **At most one entry per key.** -/
theorem keys_upsert_nodup {new : ε} {es : List ε} (h : (es.map key).Nodup) :
    ((upsert key new es).map key).Nodup := by
  induction es with
  | nil => simp [upsert]
  | cons e es ih =>
    obtain ⟨hmem, hnd⟩ := List.nodup_cons.mp h
    simp only [upsert]
    split
    next heq =>
      rw [List.map_cons, List.nodup_cons]
      exact ⟨heq ▸ hmem, hnd⟩
    next hne =>
      rw [List.map_cons, List.nodup_cons]
      refine ⟨?_, ih hnd⟩
      intro hin
      rcases mem_keys_upsert key hin with hk | hk
      · exact hne hk
      · exact hmem hk

/-- A run of writes, oldest first. -/
def upserts (writes : List ε) (es : List ε) : List ε :=
  writes.foldl (fun es e => upsert key e es) es

theorem upserts_append (ws ws' : List ε) (es : List ε) :
    upserts key (ws ++ ws') es = upserts key ws' (upserts key ws es) := by
  simp [upserts]

theorem keys_upserts_nodup (writes : List ε) :
    ((upserts key writes []).map key).Nodup := by
  induction writes using List.reverseRecOn with
  | nil => simp [upserts]
  | append_singleton ws w ih =>
    rw [upserts_append]
    exact keys_upsert_nodup key ih

/-- **The last write wins**: what a key holds after a run was written under that key, and
    nothing was written under it since. -/
theorem lookup_upserts {writes : List ε} {k : κ} {e : ε} :
    lookup key k (upserts key writes []) = some e ↔
      key e = k ∧ ∃ before after, writes = before ++ e :: after ∧ ∀ w ∈ after, key w ≠ k := by
  induction writes using List.reverseRecOn with
  | nil => simp [upserts, lookup]
  | append_singleton ws w ih =>
    have hstep : upserts key (ws ++ [w]) [] = upsert key w (upserts key ws []) :=
      upserts_append key ws [w] []
    rw [hstep, lookup_upsert]
    by_cases hw : key w = k
    · rw [if_pos hw]
      constructor
      · intro h
        injection h with h
        subst h
        exact ⟨hw, ws, [], rfl, by simp⟩
      · intro hx
        obtain ⟨-, before, after, hsplit, hafter⟩ := hx
        -- the last write is under `k`, so nothing can follow `e`
        rcases List.eq_nil_or_concat after with rfl | ⟨after', w', rfl⟩
        · have := (List.append_inj' hsplit rfl).2
          simpa using this
        · have hlast : w = w' := by
            have h2 : ws ++ [w] = (before ++ e :: after') ++ [w'] := by simpa using hsplit
            simpa using (List.append_inj' h2 rfl).2
          exact absurd hw (hlast ▸ hafter w' (by simp))
    · rw [if_neg hw, ih]
      refine and_congr_right fun hk => ?_
      constructor
      · intro hx
        obtain ⟨before, after, rfl, hafter⟩ := hx
        refine ⟨before, after ++ [w], by simp, ?_⟩
        intro w' hw'
        rcases List.mem_append.mp hw' with h | h
        · exact hafter w' h
        · rw [List.mem_singleton.mp h]
          exact hw
      · intro hx
        obtain ⟨before, after, hsplit, hafter⟩ := hx
        rcases List.eq_nil_or_concat after with rfl | ⟨after', w', rfl⟩
        · have hlast : w = e := by simpa using (List.append_inj' hsplit rfl).2
          exact absurd hk (hlast ▸ hw)
        · have h2 : ws ++ [w] = (before ++ e :: after') ++ [w'] := by simpa using hsplit
          refine ⟨before, after', (List.append_inj' h2 rfl).1, ?_⟩
          intro v hv
          exact hafter v (by simp [hv])

end RefineId.Lib
