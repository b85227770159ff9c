/-
  RefineId.PngRows — the PNG predictor of a stream undone.
  ════════════════════════════════════════════════════════════════════════════

  `png_unfiltered` of `crates/refineid-doc-sign/src/pades/xref_stream.rs` restores the rows of a
  stream from their residuals.  The format names five predictions, one for each row; the Paeth
  prediction is the first of the three neighbours that is nearest to `left + upper - upper left`.

  `vec![0_u8; columns]` is made before any row is looked at.  A declared `/Columns` beyond
  `isize::MAX` with an empty stream panics there, where any other stream has been refused.

  Main results:
    • `prediction_code`        : the code's predictions are the format's.
    • `unfilterRows_scanlines` : the rows are restored.
    • `unfilterRows_isSome`    : the loop fails on unknown filters only.
    • `unfilterRows_inv`       : what it takes are scan lines.
    • `pngUnfiltered_exact`    : when the function is the inverse of the filters.
-/
import Mathlib.Data.List.MinMax
import Mathlib.Data.UInt
import RefineId.Lib.Prediction
import RefineId.PdfIndex

namespace RefineId

open Lib

namespace Pdf

namespace Png

/-! ## §1. The filters of the format -/

/-- The filter of a row. -/
inductive Filter where
  | none
  | sub
  | up
  | average
  | paeth
  deriving Repr, DecidableEq

/-- The byte a filtered row begins with: `PNG_NONE` to `PNG_PAETH`. -/
def Filter.code : Filter → UInt8
  | .none => 0
  | .sub => 1
  | .up => 2
  | .average => 3
  | .paeth => 4

/-- The first of some samples that is nearest to an estimate. -/
def nearest (estimate : Int) (samples : List UInt8) : Option UInt8 :=
  samples.argmin fun sample => (estimate - sample.toNat).natAbs

/-- What the format predicts from the left, the upper and the upper left neighbour. -/
def Filter.predict : Filter → UInt8 → UInt8 → UInt8 → UInt8
  | .none, _, _, _ => 0
  | .sub, left, _, _ => left
  | .up, _, upper, _ => upper
  | .average, left, upper, _ => UInt8.ofNat ((left.toNat + upper.toNat) / 2)
  | .paeth, left, upper, corner =>
    (nearest (left.toNat + upper.toNat - corner.toNat) [left, upper, corner]).getD 0

/-- Rows with their filters as the stream holds them, below the row `above`. -/
def scanlinesBelow : Bytes → List (Filter × Bytes) → Bytes
  | _, [] => []
  | above, (filter, row) :: rows =>
    filter.code :: (residuals filter.predict 0 0 above row ++ scanlinesBelow row rows)

/-- The stream of some rows; the row above the first is zero. -/
def scanlines (columns : Nat) (rows : List (Filter × Bytes)) : Bytes :=
  scanlinesBelow (List.replicate columns 0) rows

/-- Every row of the stream begins with the code of a filter. -/
def KnownFilters (columns : Nat) (data : Bytes) : Prop :=
  ∀ k, k * (columns + 1) < data.length → ∃ filter : Filter, data[k * (columns + 1)]? = some filter.code

/-! ## §2. The predictions of the code -/

theorem paeth_eq (left upper corner : UInt8) :
    Pdf.paeth left upper corner = Filter.paeth.predict left upper corner := by
  have hargmin : ∀ (f : UInt8 → Nat) (a b c : UInt8), [a, b, c].argmin f =
      if f a ≤ f b ∧ f a ≤ f c then some a else if f b ≤ f c then some b else some c := by
    intro f a b c
    rw [List.argmin_cons, List.argmin_cons, List.argmin_singleton]
    by_cases hbc : f c < f b
    · simp only [hbc, if_true]
      by_cases hac : f c < f a
      · rw [if_pos hac, if_neg (by omega), if_neg (by omega)]
      · rw [if_neg hac, if_pos (by omega)]
    · simp only [hbc, if_false]
      by_cases hab : f b < f a
      · rw [if_pos hab, if_neg (by omega), if_pos (by omega)]
      · rw [if_neg hab, if_pos (by omega)]
  rw [Filter.predict, nearest, hargmin, Pdf.paeth]
  split
  · rfl
  · split <;> rfl

/-- **The code's predictions are the format's.** -/
theorem prediction_code (filter : Filter) (left upper corner : UInt8) :
    prediction filter.code left upper corner = some (filter.predict left upper corner) := by
  cases filter with
  | none => rfl
  | sub => rfl
  | up => rfl
  | average => rfl
  | paeth =>
    rw [← paeth_eq]
    rfl

theorem prediction_none {byte left upper corner : UInt8} (h : ∀ filter : Filter, byte ≠ filter.code) :
    prediction byte left upper corner = none := by
  have hnone : byte ≠ 0 := h .none
  have hsub : byte ≠ 1 := h .sub
  have hup : byte ≠ 2 := h .up
  have haverage : byte ≠ 3 := h .average
  have hpaeth : byte ≠ 4 := h .paeth
  unfold prediction
  rw [if_neg hnone, if_neg hsub, if_neg hup, if_neg haverage, if_neg hpaeth]

/-! ## §3. Rows -/

/-- A row is restored as the format says. -/
theorem unfilterRow_code (filter : Filter) (left corner : UInt8) (above row : Bytes) :
    unfilterRow filter.code left corner above row =
      some (restore filter.predict left corner above row) := by
  induction row generalizing left corner above with
  | nil => rfl
  | cons raw row ih =>
    rw [unfilterRow, prediction_code]
    show (do let others ← unfilterRow filter.code _ _ _ row; _) = _
    rw [ih]
    rfl

/-- A row with an unknown filter is refused at its first column. -/
theorem unfilterRow_none {byte left corner : UInt8} {above row : Bytes}
    (h : ∀ filter : Filter, byte ≠ filter.code) (hrow : row ≠ []) :
    unfilterRow byte left corner above row = none := by
  cases row with
  | nil => exact absurd rfl hrow
  | cons raw row =>
    rw [unfilterRow, prediction_none h]
    rfl

theorem scanlinesBelow_length {columns : Nat} {rows : List (Filter × Bytes)}
    (hrows : ∀ r ∈ rows, r.2.length = columns) (above : Bytes) :
    (scanlinesBelow above rows).length = rows.length * (columns + 1) := by
  induction rows generalizing above with
  | nil => rw [scanlinesBelow, List.length_nil, List.length_nil, Nat.zero_mul]
  | cons r rows ih =>
    obtain ⟨filter, row⟩ := r
    have hrow : row.length = columns := hrows _ List.mem_cons_self
    have hrest := ih (fun r hr => hrows r (List.mem_cons_of_mem _ hr)) row
    rw [scanlinesBelow, List.length_cons, List.length_append, residuals_length, hrest, hrow,
      List.length_cons, Nat.succ_mul]
    omega

/-- **The rows are restored**, each from the one above. -/
theorem unfilterRows_scanlines {columns : Nat} {rows : List (Filter × Bytes)}
    (hrows : ∀ r ∈ rows, r.2.length = columns) (above : Bytes) :
    unfilterRows columns rows.length above (scanlinesBelow above rows) =
      some (rows.map Prod.snd).flatten := by
  induction rows generalizing above with
  | nil => rfl
  | cons r rows ih =>
    obtain ⟨filter, row⟩ := r
    have hrow : row.length = columns := hrows _ List.mem_cons_self
    have hlength : (residuals filter.predict 0 0 above row).length = columns := by
      rw [residuals_length, hrow]
    have hrest := ih (fun r hr => hrows r (List.mem_cons_of_mem _ hr)) row
    rw [scanlinesBelow, List.length_cons, unfilterRows, List.take_left' hlength,
      List.drop_left' hlength, unfilterRow_code, restore_residuals]
    show (do let others ← unfilterRows columns rows.length row _; _) = _
    rw [hrest]
    rfl

/-- **The loop fails on unknown filters only.** -/
theorem unfilterRows_isSome {columns n : Nat} {above data : Bytes} (hcolumns : columns ≠ 0)
    (hlength : data.length = n * (columns + 1)) :
    (unfilterRows columns n above data).isSome = true ↔ KnownFilters columns data := by
  induction n generalizing above data with
  | zero =>
    have hnil : data = [] := List.length_eq_zero_iff.mp (by rw [hlength, Nat.zero_mul])
    subst hnil
    exact ⟨fun _ k hk => absurd hk (Nat.not_lt_zero _), fun _ => rfl⟩
  | succ n ih =>
    cases data with
    | nil =>
      rw [List.length_nil, Nat.succ_mul] at hlength
      omega
    | cons byte data =>
      have hrest : data.length = columns + n * (columns + 1) := by
        rw [List.length_cons, Nat.succ_mul] at hlength
        omega
      have hbelow : (data.drop columns).length = n * (columns + 1) := by
        rw [List.length_drop]
        omega
      have hindex : ∀ k, (byte :: data)[(k + 1) * (columns + 1)]? =
          (data.drop columns)[k * (columns + 1)]? := by
        intro k
        have hplace : (k + 1) * (columns + 1) = (columns + k * (columns + 1)) + 1 := by
          rw [Nat.succ_mul]
          omega
        rw [hplace, List.getElem?_cons_succ, List.getElem?_drop]
      rw [unfilterRows]
      by_cases hknown : ∃ filter : Filter, byte = filter.code
      · obtain ⟨filter, rfl⟩ := hknown
        rw [unfilterRow_code]
        show (Option.bind (unfilterRows columns n _ (data.drop columns)) _).isSome = true ↔ _
        rw [Option.isSome_bind]
        constructor
        · intro h k hk
          have hmore := (ih hbelow).mp (Option.isSome_of_any h)
          cases k with
          | zero => exact ⟨filter, by rw [Nat.zero_mul]; rfl⟩
          | succ k =>
            rw [hindex]
            refine hmore k ?_
            rw [List.length_cons, hrest, Nat.succ_mul] at hk
            omega
        · intro h
          have hmore : KnownFilters columns (data.drop columns) := by
            intro k hk
            obtain ⟨filter', hcode⟩ := h (k + 1) (by
              rw [List.length_cons, hrest, Nat.succ_mul]
              omega)
            exact ⟨filter', by rw [← hindex, hcode]⟩
          obtain ⟨others, hothers⟩ := Option.isSome_iff_exists.mp ((ih hbelow).mpr hmore)
          rw [hothers]
          rfl
      · have hunknown : ∀ filter : Filter, byte ≠ filter.code := fun filter hcode =>
          hknown ⟨filter, hcode⟩
        have hrow : data.take columns ≠ [] := by
          intro hnil
          have hzero := congrArg List.length hnil
          rw [List.length_take, List.length_nil] at hzero
          omega
        rw [unfilterRow_none hunknown hrow]
        constructor
        · intro h
          cases h
        · intro h
          obtain ⟨filter, hcode⟩ := h 0 (by rw [Nat.zero_mul]; exact Nat.succ_pos _)
          rw [Nat.zero_mul] at hcode
          exact absurd (Option.some.inj hcode) (hunknown filter)

/-- **What is restored was filtered**: the loop takes nothing but scan lines, and returns their
    rows. -/
theorem unfilterRows_inv {columns n : Nat} {above data out : Bytes} (hcolumns : columns ≠ 0)
    (hlength : data.length = n * (columns + 1)) (h : unfilterRows columns n above data = some out) :
    ∃ rows : List (Filter × Bytes), (∀ r ∈ rows, r.2.length = columns) ∧
      data = scanlinesBelow above rows ∧ out = (rows.map Prod.snd).flatten := by
  induction n generalizing above data out with
  | zero =>
    obtain rfl : data = [] := List.length_eq_zero_iff.mp (by rw [hlength, Nat.zero_mul])
    exact ⟨[], fun r hr => absurd hr List.not_mem_nil, rfl, (Option.some.inj h).symm⟩
  | succ n ih =>
    cases data with
    | nil =>
      rw [List.length_nil, Nat.succ_mul] at hlength
      omega
    | cons byte data =>
      have hrest : data.length = columns + n * (columns + 1) := by
        rw [List.length_cons, Nat.succ_mul] at hlength
        omega
      have htake : (data.take columns).length = columns := by
        rw [List.length_take]
        omega
      have hbelow : (data.drop columns).length = n * (columns + 1) := by
        rw [List.length_drop]
        omega
      rw [unfilterRows] at h
      by_cases hknown : ∃ filter : Filter, byte = filter.code
      · obtain ⟨filter, rfl⟩ := hknown
        rw [unfilterRow_code] at h
        obtain ⟨row, hrestored, hmore⟩ := Option.bind_eq_some_iff.mp h
        obtain rfl := Option.some.inj hrestored
        obtain ⟨others, hothers, hout⟩ := Option.bind_eq_some_iff.mp hmore
        obtain ⟨rows, hrows, hdata, rfl⟩ := ih hbelow hothers
        -- the row of these residuals is the one that was restored from them
        refine ⟨(filter, restore filter.predict 0 0 above (data.take columns)) :: rows, ?_, ?_,
          (Option.some.inj hout).symm⟩
        · intro r hr
          obtain rfl | hr := List.mem_cons.mp hr
          · show (restore _ _ _ _ _).length = columns
            rw [restore_length, htake]
          · exact hrows r hr
        · rw [scanlinesBelow, residuals_restore, ← hdata, List.take_append_drop]
      · have hunknown : ∀ filter : Filter, byte ≠ filter.code := fun filter hcode =>
          hknown ⟨filter, hcode⟩
        have hrow : data.take columns ≠ [] := by
          intro hnil
          rw [hnil, List.length_nil] at htake
          exact hcolumns htake.symm
        rw [unfilterRow_none hunknown hrow] at h
        cases h

/-! ## §4. The whole function -/

/-- The function where the buffer of a row can be allocated. -/
theorem pngUnfiltered_eq {columns : Nat} {data : Bytes} (hcolumns : columns ≠ 0)
    (hbuffer : columns ≤ isizeMax) (hwhole : data.length % (columns + 1) = 0) :
    pngUnfiltered data columns =
      match unfilterRows columns (data.length / (columns + 1)) (List.replicate columns 0) data with
      | some out => .ok out
      | none => fail .missingTrailer := by
  have hstride : min (columns + 1) usizeMax = columns + 1 := by
    unfold isizeMax at hbuffer
    unfold usizeMax
    omega
  have hrows : ¬ (columns = 0 ∨ data.length % (columns + 1) ≠ 0) :=
    not_or.mpr ⟨hcolumns, not_not.mpr hwhole⟩
  unfold pngUnfiltered
  simp only [hstride]
  exact (if_neg hrows).trans (if_neg (Nat.not_lt.mpr hbuffer))

/-- What is not whole rows is refused. -/
theorem pngUnfiltered_refused {columns : Nat} {data : Bytes} (hbuffer : columns ≤ isizeMax)
    (h : columns = 0 ∨ data.length % (columns + 1) ≠ 0) :
    pngUnfiltered data columns = fail .missingTrailer := by
  have hstride : min (columns + 1) usizeMax = columns + 1 := by
    unfold isizeMax at hbuffer
    unfold usizeMax
    omega
  unfold pngUnfiltered
  simp only [hstride, if_pos h]

/-- A stream has fewer columns than bytes, unless it is empty. -/
theorem columns_le {columns : Nat} {data : Bytes} (hmemory : data.length ≤ isizeMax)
    (hne : data ≠ []) (hwhole : data.length % (columns + 1) = 0) : columns ≤ isizeMax := by
  have hpos := List.length_pos_iff.mpr hne
  have hle := Nat.le_of_dvd hpos (Nat.dvd_of_mod_eq_zero hwhole)
  omega

theorem scanlines_whole {columns : Nat} {rows : List (Filter × Bytes)}
    (hrows : ∀ r ∈ rows, r.2.length = columns) :
    (scanlines columns rows).length % (columns + 1) = 0 ∧
      (scanlines columns rows).length / (columns + 1) = rows.length := by
  rw [scanlines, scanlinesBelow_length hrows]
  exact ⟨Nat.mul_mod_left _ _, Nat.mul_div_cancel _ (Nat.succ_pos _)⟩

/-- **The predictor is undone**, where the buffer of a row can be allocated. -/
theorem pngUnfiltered_scanlines {columns : Nat} {rows : List (Filter × Bytes)}
    (hcolumns : columns ≠ 0) (hbuffer : columns ≤ isizeMax)
    (hrows : ∀ r ∈ rows, r.2.length = columns) :
    pngUnfiltered (scanlines columns rows) columns = .ok (rows.map Prod.snd).flatten := by
  obtain ⟨hwhole, hcount⟩ := scanlines_whole hrows
  rw [pngUnfiltered_eq hcolumns hbuffer hwhole, hcount, scanlines, unfilterRows_scanlines hrows]

/-- **What is accepted**, where the buffer of a row can be allocated. -/
theorem pngUnfiltered_isOk {columns : Nat} {data : Bytes} (hbuffer : columns ≤ isizeMax) :
    (∃ out, pngUnfiltered data columns = .ok out) ↔
      columns ≠ 0 ∧ data.length % (columns + 1) = 0 ∧ KnownFilters columns data := by
  by_cases hshape : columns = 0 ∨ data.length % (columns + 1) ≠ 0
  · rw [pngUnfiltered_refused hbuffer hshape]
    constructor
    · rintro ⟨out, hout⟩
      cases hout
    · rintro ⟨hcolumns, hwhole, -⟩
      obtain hzero | hpart := hshape
      · exact absurd hzero hcolumns
      · exact absurd hwhole hpart
  · obtain ⟨hcolumns, hwhole⟩ := not_or.mp hshape
    rw [not_not] at hwhole
    have hlength : data.length = data.length / (columns + 1) * (columns + 1) :=
      (Nat.div_mul_cancel (Nat.dvd_of_mod_eq_zero hwhole)).symm
    have hsome : (unfilterRows columns (data.length / (columns + 1)) (List.replicate columns 0)
        data).isSome = true ↔ KnownFilters columns data := unfilterRows_isSome hcolumns hlength
    rw [pngUnfiltered_eq hcolumns hbuffer hwhole]
    constructor
    · rintro ⟨out, hout⟩
      split at hout
      next out' hloop => exact ⟨hcolumns, hwhole, hsome.mp (by rw [hloop]; rfl)⟩
      next => cases hout
    · rintro ⟨-, -, hknown⟩
      obtain ⟨out, hloop⟩ := Option.isSome_iff_exists.mp (hsome.mpr hknown)
      rw [hloop]
      exact ⟨out, rfl⟩

/-- A declared width that no buffer can have panics on an empty stream. -/
theorem pngUnfiltered_panics {columns : Nat} (hwide : isizeMax < columns) :
    pngUnfiltered [] columns = .error .panic := by
  have hcolumns : ¬ columns = 0 := Nat.ne_of_gt (Nat.lt_of_le_of_lt (Nat.zero_le _) hwide)
  unfold pngUnfiltered
  simp only [List.length_nil, Nat.zero_mod, hcolumns, ne_eq, not_true_eq_false, or_self, if_false,
    if_pos hwide]

/-- **When the function is the inverse of the filters**: it restores the rows that were filtered,
    and refuses what is not whole rows, has no columns or begins a row with an unknown filter,
    and nothing else, unless the stream is empty and no buffer can have the declared width.
    A slice has at most `isize::MAX` bytes. -/
theorem pngUnfiltered_exact {data : Bytes} (hmemory : data.length ≤ isizeMax) (columns : Nat) :
    ((∀ rows : List (Filter × Bytes), columns ≠ 0 → (∀ r ∈ rows, r.2.length = columns) →
        data = scanlines columns rows →
          pngUnfiltered data columns = .ok (rows.map Prod.snd).flatten) ∧
      ((¬ ∃ out, pngUnfiltered data columns = .ok out) ↔
        data.length % (columns + 1) ≠ 0 ∨ columns = 0 ∨ ¬ KnownFilters columns data)) ↔
    (data ≠ [] ∨ columns ≤ isizeMax) := by
  constructor
  · rintro ⟨hinverse, -⟩
    by_contra hbad
    obtain ⟨hnil, hwide⟩ := not_or.mp hbad
    rw [not_not] at hnil
    subst hnil
    have hcolumns : columns ≠ 0 := by
      rintro rfl
      exact hwide (Nat.zero_le _)
    have hempty := hinverse [] hcolumns (fun r hr => absurd hr List.not_mem_nil) rfl
    rw [pngUnfiltered_panics (Nat.not_le.mp hwide)] at hempty
    cases hempty
  · intro hgood
    by_cases hbuffer : columns ≤ isizeMax
    · refine ⟨fun rows hcolumns hrows hdata => ?_, ?_⟩
      · rw [hdata]
        exact pngUnfiltered_scanlines hcolumns hbuffer hrows
      · rw [pngUnfiltered_isOk hbuffer]
        tauto
    · -- no stream that fits in memory has a row so long
      have hne : data ≠ [] := hgood.resolve_right hbuffer
      have hpart : data.length % (columns + 1) ≠ 0 := fun hwhole =>
        hbuffer (columns_le hmemory hne hwhole)
      refine ⟨fun rows _ hrows hdata => ?_, ?_⟩
      · rw [hdata] at hpart
        exact absurd (scanlines_whole hrows).1 hpart
      · have hrefused : ¬ ∃ out, pngUnfiltered data columns = .ok out := by
          have hmod : data.length % min (columns + 1) usizeMax ≠ 0 := by
            have hpos := List.length_pos_iff.mpr hne
            rw [Nat.mod_eq_of_lt]
            · omega
            · unfold isizeMax at hmemory hbuffer
              unfold usizeMax
              omega
          unfold pngUnfiltered
          simp only [if_pos (Or.inr hmod)]
          rintro ⟨out, hout⟩
          cases hout
        exact ⟨fun _ => .inl hpart, fun _ => hrefused⟩

/-- Two rows, the lower one with the Paeth prediction. -/
theorem pngUnfiltered_paeth :
    pngUnfiltered [1, 10, 10, 4, 20, 251] 2 = .ok [10, 20, 30, 25] := by
  obtain ⟨hinverse, -⟩ := (@pngUnfiltered_exact [1, 10, 10, 4, 20, 251] (by decide) 2).mpr
    (.inl (by decide))
  exact hinverse [(.sub, [10, 20]), (.paeth, [30, 25])] (by decide) (by decide) (by decide)

/-- **An empty stream with a declared width of 2⁶³**: its rows, which are none, are not
    returned. -/
theorem emptyStream_panics :
    [] = scanlines (2 ^ 63) [] ∧
      pngUnfiltered (scanlines (2 ^ 63) []) (2 ^ 63) ≠ .ok (([] : List Bytes).flatten) ∧
      (¬ ∃ out, pngUnfiltered [] (2 ^ 63) = .ok out) ∧
      ¬ (([] : Bytes).length % (2 ^ 63 + 1) ≠ 0 ∨ 2 ^ 63 = 0 ∨ ¬ KnownFilters (2 ^ 63) []) := by
  have hpanics : pngUnfiltered [] (2 ^ 63) = .error .panic :=
    pngUnfiltered_panics (by unfold isizeMax; omega)
  refine ⟨rfl, ?_, ?_, ?_⟩
  · show pngUnfiltered [] (2 ^ 63) ≠ _
    rw [hpanics]
    intro h
    cases h
  · rw [hpanics]
    rintro ⟨out, hout⟩
    cases hout
  · rintro (hpart | hzero | hunknown)
    · exact hpart (Nat.zero_mod _)
    · omega
    · exact hunknown fun k hk => absurd hk (Nat.not_lt_zero _)

end Png

end Pdf

end RefineId
