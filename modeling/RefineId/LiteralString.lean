/-
  RefineId.LiteralString — what a literal string reads back as.
  ════════════════════════════════════════════════════════════════════════════

  A literal string is scanned to its closing parenthesis by the value parser and its
  contents are decoded by `decode_literal_string`.  `push_optional_text` escapes both
  parentheses and the backslash; other texts are written as they are.

  Main results:
    • `decodeLiteralString_escaped` : escaped text reads back, but for escapes past the limit.
    • `decodeLiteralString_shrinks` : a backslash never decodes to as many bytes.
    • `literal_escaped`             : the scanner passes over escaped text.
    • `plain_of_read`               : what is read back unescaped has no backslash and nests.
-/
import RefineId.Pades
import RefineId.PdfGrammar

namespace RefineId

namespace Pdf

open Lib

/-! ## §1. Decoding -/

theorem octalTail_length (limit value : Nat) (rest : Bytes) :
    (octalTail limit value rest).2.length ≤ rest.length := by
  induction limit generalizing value rest with
  | zero => exact Nat.le_refl _
  | succ limit ih =>
    cases rest with
    | nil => exact Nat.le_refl _
    | cons b rest =>
      simp only [octalTail]
      split
      next digit _ =>
        have := ih (value * 8 + digit) rest
        simp only [List.length_cons]
        omega
      · exact Nat.le_refl _

/-- An escape stands for one byte at most. -/
theorem literalEscape_length {escaped : UInt8} {rest plain rest' : Bytes}
    (h : literalEscape escaped rest = .ok (plain, rest')) :
    plain.length ≤ 1 ∧ rest'.length ≤ rest.length := by
  have hskip : (dropHead? 10 rest).length ≤ rest.length := by
    unfold dropHead?
    split
    · rw [List.length_tail]
      omega
    · exact Nat.le_refl _
  have hoctal := octalTail_length 2
  -- one byte in each case, none for a line continued, and an octal code may be too large
  have hone : ∀ {b : UInt8} {left : Bytes}, left.length ≤ rest.length →
      (Except.ok ([b], left) : Except PdfError (Bytes × Bytes)) = .ok (plain, rest') →
      plain.length ≤ 1 ∧ rest'.length ≤ rest.length := by
    intro b left hle heq
    simp only [Except.ok.injEq, Prod.mk.injEq] at heq
    obtain ⟨rfl, rfl⟩ := heq
    exact ⟨Nat.le_refl _, hle⟩
  have hnone : ∀ {left : Bytes}, left.length ≤ rest.length →
      (Except.ok ([], left) : Except PdfError (Bytes × Bytes)) = .ok (plain, rest') →
      plain.length ≤ 1 ∧ rest'.length ≤ rest.length := by
    intro left hle heq
    simp only [Except.ok.injEq, Prod.mk.injEq] at heq
    obtain ⟨rfl, rfl⟩ := heq
    exact ⟨Nat.zero_le _, hle⟩
  unfold literalEscape at h
  split at h
  · exact hone (Nat.le_refl _) h
  split at h
  · exact hone (Nat.le_refl _) h
  split at h
  · exact hone (Nat.le_refl _) h
  split at h
  · exact hone (Nat.le_refl _) h
  split at h
  · exact hone (Nat.le_refl _) h
  split at h
  · exact hnone hskip h
  split at h
  · exact hnone (Nat.le_refl _) h
  split at h
  next digit _ =>
    dsimp only at h
    split at h
    · exact hone (hoctal digit rest) h
    · exact absurd h (by simp)
  · exact hone (Nat.le_refl _) h

/-- A turn that goes on has read a plain byte, or an escape. -/
theorem decodeLiteralTurn_next {s s' : Bytes × Bytes} (h : decodeLiteralTurn s = .next s') :
    (∃ b rest, s.2 = b :: rest ∧ b ≠ byte '\\' ∧ s' = (s.1 ++ [b], rest)) ∨
    (∃ escaped rest plain rest', s.2 = byte '\\' :: escaped :: rest ∧
      plain.length ≤ 1 ∧ rest'.length ≤ rest.length ∧ s' = (s.1 ++ plain, rest')) := by
  obtain ⟨decoded, encoded⟩ := s
  cases encoded with
  | nil => exact absurd h (by simp [decodeLiteralTurn])
  | cons b rest =>
    by_cases hb : b = byte '\\'
    · subst hb
      cases rest with
      | nil => exact absurd h (by simp [decodeLiteralTurn])
      | cons escaped rest =>
        simp only [decodeLiteralTurn, ne_eq, not_true_eq_false, if_false] at h
        split at h
        · exact absurd h (by simp)
        next plain rest' hescape =>
          split at h
          · exact absurd h (by simp)
          · injection h with h
            obtain ⟨hplain, hrest⟩ := literalEscape_length hescape
            exact .inr ⟨escaped, rest, plain, rest', rfl, hplain, hrest, h.symm⟩
    · simp only [decodeLiteralTurn, ne_eq, hb, not_false_eq_true, if_true] at h
      injection h with h
      exact .inl ⟨b, rest, rfl, hb, h.symm⟩

theorem decodeLiteralTurn_drops (s s' : Bytes × Bytes) (h : decodeLiteralTurn s = .next s') :
    s'.2.length < s.2.length := by
  obtain ⟨b, rest, hs, -, rfl⟩ | ⟨escaped, rest, plain, rest', hs, -, hrest, rfl⟩ :=
    decodeLiteralTurn_next h
  · rw [hs]
    exact Nat.lt_succ_self _
  · rw [hs]
    simp only [List.length_cons]
    omega

/-- **The decoder ends**: what it returns is the end of a run. -/
theorem decodeLiteralString_runs (encoded : Bytes) :
    Lib.Runs decodeLiteralTurn ([], encoded) (decodeLiteralString encoded) := by
  obtain ⟨result, hresult⟩ := loop_isSome (fun s : Bytes × Bytes => s.2.length)
    decodeLiteralTurn_drops (s := ([], encoded)) (Nat.lt_succ_self encoded.length)
  have : decodeLiteralString encoded = result := by rw [decodeLiteralString, hresult]; rfl
  rw [this]
  exact runs_of_loop hresult

theorem decodeLiteralString_of_runs {encoded : Bytes} {r : Except PdfError Bytes}
    (h : Lib.Runs decodeLiteralTurn ([], encoded) r) : decodeLiteralString encoded = r := by
  have hloop := loop_of_runs (fun s : Bytes × Bytes => s.2.length) decodeLiteralTurn_drops h
    (Nat.lt_succ_self encoded.length)
  rw [decodeLiteralString, hloop]
  rfl

/-- What is decoded is the text itself, or shorter. -/
theorem runs_shrinks {s : Bytes × Bytes} {r : Except PdfError Bytes}
    (h : Lib.Runs decodeLiteralTurn s r) {decoded : Bytes} (hr : r = .ok decoded) :
    byte '\\' ∉ s.2 ∧ decoded = s.1 ++ s.2 ∨ decoded.length < s.1.length + s.2.length := by
  induction h with
  | @done s r hdone =>
    subst hr
    obtain ⟨plain, encoded⟩ := s
    cases encoded with
    | nil =>
      simp only [decodeLiteralTurn, Turn.done.injEq, Except.ok.injEq] at hdone
      exact .inl ⟨by simp, by simp [hdone]⟩
    | cons b rest =>
      simp only [decodeLiteralTurn] at hdone
      repeat' split at hdone
      all_goals exact absurd hdone (by simp)
  | @next s s' r hturn _ ih =>
    obtain ⟨b, rest, hs, hb, rfl⟩ | ⟨escaped, rest, plain, rest', hs, hplain, hrest, rfl⟩ :=
      decodeLiteralTurn_next hturn
    · rw [hs]
      obtain ⟨hnone, heq⟩ | hshort := ih hr
      · refine .inl ⟨?_, by rw [heq, List.append_assoc]; rfl⟩
        rw [List.mem_cons, not_or]
        exact ⟨Ne.symm hb, hnone⟩
      · simp only [List.length_append, List.length_cons, List.length_nil] at hshort
        simp only [List.length_cons]
        omega
    · -- two bytes or more are read for one at most
      rw [hs]
      refine .inr ?_
      have hle : decoded.length ≤ (s.1 ++ plain).length + rest'.length := by
        obtain ⟨-, heq⟩ | hshort := ih hr
        · rw [heq, List.length_append]
        · exact hshort.le
      simp only [List.length_append] at hle
      simp only [List.length_cons]
      omega

/-- **A backslash never decodes to as many bytes.** -/
theorem decodeLiteralString_shrinks {encoded decoded : Bytes}
    (h : decodeLiteralString encoded = .ok decoded) :
    byte '\\' ∉ encoded ∧ decoded = encoded ∨ decoded.length < encoded.length := by
  have hruns := decodeLiteralString_runs encoded
  simpa using runs_shrinks hruns h

/-- Text without a backslash is decoded as it is, however long. -/
theorem decodeLiteralString_plain {text : Bytes} (h : byte '\\' ∉ text) :
    decodeLiteralString text = .ok text := by
  have hruns : ∀ plain, Lib.Runs decodeLiteralTurn (plain, text) (.ok (plain ++ text)) := by
    induction text with
    | nil => exact fun plain => .done (by simp [decodeLiteralTurn])
    | cons b text ih =>
      intro plain
      rw [List.mem_cons, not_or] at h
      have hrest := ih h.2 (plain ++ [b])
      rw [List.append_assoc] at hrest
      exact .next (by simp [decodeLiteralTurn, Ne.symm h.1]) hrest
  exact decodeLiteralString_of_runs (hruns [])

/-- The bytes `push_optional_text` escapes. -/
def isSpecial (b : UInt8) : Bool := b = byte '\\' || b = byte '(' || b = byte ')'

/-- A text as `push_optional_text` writes it. -/
def escaped (text : Bytes) : Bytes := text.flatMap escapeByte

theorem escapeByte_eq (b : UInt8) :
    escapeByte b = if isSpecial b = true then [byte '\\', b] else [b] := rfl

theorem escaped_cons (b : UInt8) (text : Bytes) :
    escaped (b :: text) =
      if isSpecial b then byte '\\' :: b :: escaped text else b :: escaped text := by
  simp only [escaped, List.flatMap_cons, escapeByte_eq]
  split <;> rfl

theorem isSpecial_cases {b : UInt8} (h : isSpecial b = true) :
    b = byte '\\' ∨ b = byte '(' ∨ b = byte ')' := by
  simpa [isSpecial, or_assoc] using h

/-- Each of them stands for itself. -/
theorem literalEscape_special {b : UInt8} (h : isSpecial b = true) (rest : Bytes) :
    literalEscape b rest = .ok ([b], rest) := by
  obtain rfl | rfl | rfl := isSpecial_cases h <;> rfl

theorem decodeLiteralTurn_escape {b : UInt8} (h : isSpecial b = true) (plain rest : Bytes) :
    decodeLiteralTurn (plain, byte '\\' :: b :: rest) =
      if maxFieldNameBytes < (plain ++ [b]).length then .done (.error .unreadableForm)
      else .next (plain ++ [b], rest) := by
  simp only [decodeLiteralTurn, ne_eq, not_true_eq_false, if_false, literalEscape_special h]

/-- Within the limit of `decode_literal_string` all special bytes of a text are decoded. -/
def EscapesWithin (text : Bytes) : Prop := ∀ b ∈ text.drop maxFieldNameBytes, isSpecial b = false

instance (text : Bytes) : Decidable (EscapesWithin text) :=
  inferInstanceAs (Decidable (∀ b ∈ text.drop maxFieldNameBytes, isSpecial b = false))

/-- The decoder over escaped text, with so many bytes decoded before it. -/
theorem runs_escaped (plain text : Bytes) :
    Lib.Runs decodeLiteralTurn (plain, escaped text)
      (if ∀ b ∈ text.drop (maxFieldNameBytes - plain.length), isSpecial b = false then
        .ok (plain ++ text) else .error .unreadableForm) := by
  induction text generalizing plain with
  | nil => exact .done (by simp [escaped, decodeLiteralTurn])
  | cons b text ih =>
    have hrest := ih (plain ++ [b])
    rw [List.append_assoc, List.length_append] at hrest
    cases hspecial : isSpecial b with
    | false =>
      have hb : b ≠ byte '\\' := by
        intro hb
        subst hb
        exact absurd hspecial (by decide)
      -- a plain byte does not count, wherever it stands
      have hiff : (∀ x ∈ (b :: text).drop (maxFieldNameBytes - plain.length), isSpecial x = false) ↔
          ∀ x ∈ text.drop (maxFieldNameBytes - (plain.length + 1)), isSpecial x = false := by
        by_cases hroom : plain.length < maxFieldNameBytes
        · rw [show maxFieldNameBytes - plain.length =
            (maxFieldNameBytes - (plain.length + 1)) + 1 by omega, List.drop_succ_cons]
        · rw [show maxFieldNameBytes - plain.length = 0 by omega,
            show maxFieldNameBytes - (plain.length + 1) = 0 by omega, List.drop_zero, List.drop_zero,
            List.forall_mem_cons]
          exact ⟨fun h => h.2, fun h => ⟨hspecial, h⟩⟩
      rw [escaped_cons, hspecial, if_neg (by simp)]
      simp only [hiff]
      exact .next (by simp [decodeLiteralTurn, hb]) hrest
    | true =>
      rw [escaped_cons, hspecial, if_pos rfl]
      by_cases hroom : plain.length < maxFieldNameBytes
      · rw [show maxFieldNameBytes - plain.length =
          (maxFieldNameBytes - (plain.length + 1)) + 1 by omega, List.drop_succ_cons]
        refine .next ?_ hrest
        rw [decodeLiteralTurn_escape hspecial, if_neg]
        simp only [List.length_append, List.length_cons, List.length_nil]
        omega
      · -- the byte stands past the limit
        rw [show maxFieldNameBytes - plain.length = 0 by omega, List.drop_zero, if_neg]
        · refine .done ?_
          rw [decodeLiteralTurn_escape hspecial, if_pos]
          simp only [List.length_append, List.length_cons, List.length_nil]
          omega
        · intro hall
          exact absurd (hall b List.mem_cons_self) (by simp [hspecial])

/-- **Escaped text reads back** exactly when no special byte stands past the limit. -/
theorem decodeLiteralString_escaped (text : Bytes) :
    decodeLiteralString (escaped text) = .ok text ↔ EscapesWithin text := by
  have hruns := decodeLiteralString_of_runs (runs_escaped [] text)
  simp only [List.length_nil, Nat.sub_zero, List.nil_append] at hruns
  rw [hruns]
  unfold EscapesWithin
  split
  next h => exact ⟨fun _ => h, fun _ => rfl⟩
  next h => exact ⟨fun hok => absurd hok (by simp), fun hall => absurd hall h⟩

/-! ## §2. Scanning -/

theorem literal_plainByte {b : UInt8} (h : isSpecial b = false) (depth : Nat) (rest : Bytes) :
    literalStringRemainder depth (b :: rest) = literalStringRemainder depth rest := by
  simp only [isSpecial, Bool.or_eq_false_iff, decide_eq_false_iff_not] at h
  rw [literalStringRemainder.eq_def]
  simp only [h, if_false]

/-- **The scanner passes over escaped text**, where more follows. -/
theorem literal_escaped (depth : Nat) (text : Bytes) (d : UInt8) (rest : Bytes) :
    literalStringRemainder depth (escaped text ++ d :: rest) =
      literalStringRemainder depth (d :: rest) := by
  induction text with
  | nil => rfl
  | cons b text ih =>
    rw [escaped_cons]
    cases hspecial : isSpecial b with
    | false =>
      rw [if_neg (by simp), List.cons_append, literal_plainByte hspecial, ih]
    | true =>
      have hcr : b ≠ 13 := by
        intro hb
        subst hb
        exact absurd hspecial (by decide)
      rw [if_pos rfl, ← ih]
      obtain ⟨e, more, hmore⟩ : ∃ e more, escaped text ++ d :: rest = e :: more := by
        cases escaped text with
        | nil => exact ⟨d, rest, rfl⟩
        | cons e more => exact ⟨e, more ++ d :: rest, rfl⟩
      rw [List.cons_append, List.cons_append, hmore, literalStringRemainder.eq_def]
      simp [hcr]

/-- Text that can stand in a literal string unescaped: no backslash, and the parentheses
    nest no deeper than the parser follows. -/
def plainFrom (depth : Nat) : Bytes → Bool
  | [] => depth - 1 = 0
  | b :: rest =>
    if b = byte '\\' then false
    else if b = byte '(' then depth + 1 ≤ maxPdfValueDepth && plainFrom (depth + 1) rest
    else if b = byte ')' then !(depth - 1 = 0) && plainFrom (depth - 1) rest
    else plainFrom depth rest

/-- Plain text, in the string's own parentheses. -/
def Plain (text : Bytes) : Prop := plainFrom 1 text = true

instance (text : Bytes) : Decidable (Plain text) :=
  inferInstanceAs (Decidable (plainFrom 1 text = true))

theorem plainFrom_no_backslash {depth : Nat} {text : Bytes} (h : plainFrom depth text = true) :
    byte '\\' ∉ text := by
  induction text generalizing depth with
  | nil => simp
  | cons b text ih =>
    rw [List.mem_cons, not_or]
    simp only [plainFrom] at h
    split at h
    · exact absurd h (by simp)
    next hb =>
      refine ⟨Ne.symm hb, ?_⟩
      split at h
      · exact ih (Bool.and_eq_true_iff.mp h).2
      · split at h
        · exact ih (Bool.and_eq_true_iff.mp h).2
        · exact ih h

/-- The scanner stops right behind plain text. -/
theorem literal_plain_text {depth : Nat} {text : Bytes} (h : plainFrom depth text = true)
    (rest : Bytes) : literalStringRemainder depth (text ++ byte ')' :: rest) = .ok rest := by
  induction text generalizing depth with
  | nil =>
    simp only [plainFrom, decide_eq_true_eq] at h
    rw [List.nil_append, literalStringRemainder.eq_def]
    dsimp only
    rw [if_neg (by decide), if_neg (by decide), if_pos rfl, if_pos h]
  | cons b text ih =>
    rw [List.cons_append, literalStringRemainder.eq_def]
    simp only [plainFrom] at h
    dsimp only
    split at h
    · exact absurd h (by simp)
    next hb =>
      rw [if_neg hb]
      split at h
      next hopen =>
        rw [if_pos hopen]
        rw [Bool.and_eq_true_iff, decide_eq_true_eq] at h
        rw [checkDepth_ok h.1]
        exact ih h.2
      next hopen =>
        rw [if_neg hopen]
        split at h
        next hclose =>
          rw [if_pos hclose]
          simp only [Bool.and_eq_true, Bool.not_eq_true', decide_eq_false_iff_not] at h
          rw [if_neg h.1]
          exact ih h.2
        next hclose =>
          rw [if_neg hclose]
          exact ih h

/-- Text without a backslash that the scanner stops right behind is plain. -/
theorem plainFrom_of_literal {depth : Nat} {text tail : Bytes} (hnone : byte '\\' ∉ text)
    (h : literalStringRemainder depth (text ++ byte ')' :: tail) = .ok tail) :
    plainFrom depth text = true := by
  induction text generalizing depth with
  | nil =>
    rw [List.nil_append, literalStringRemainder.eq_def] at h
    dsimp only at h
    rw [if_neg (by decide), if_neg (by decide), if_pos rfl] at h
    split at h
    next hclosed => simpa [plainFrom] using hclosed
    · exact absurd (literalStringRemainder_suffix h).2 (by simp)
  | cons b text ih =>
    rw [List.mem_cons, not_or] at hnone
    have hb : b ≠ byte '\\' := Ne.symm hnone.1
    rw [List.cons_append, literalStringRemainder.eq_def] at h
    dsimp only at h
    rw [if_neg hb] at h
    rw [plainFrom, if_neg hb]
    split at h
    next hopen =>
      obtain ⟨_, hdepth, h⟩ := bind_eq_ok.mp h
      rw [if_pos hopen, ih hnone.2 h]
      simpa using checkDepth_eq_ok hdepth
    next hopen =>
      rw [if_neg hopen]
      split at h
      next hclose =>
        rw [if_pos hclose]
        split at h
        · -- it would have stopped within the text
          have hlength := congrArg List.length (Except.ok.inj h)
          simp at hlength
          omega
        next hnested => simp [hnested, ih hnone.2 h]
      next hclose =>
        rw [if_neg hclose]
        exact ih hnone.2 h

/-- **What is read back unescaped is plain.**  Where no other closing parenthesis follows, the
    string holds no more than the text, and it reads back only when it holds all of it. -/
theorem plain_of_read {text tail after contents : Bytes} (htail : byte ')' ∉ tail)
    (h : literalStringRemainder 1 (text ++ byte ')' :: tail) = .ok after)
    (hcontents : text ++ byte ')' :: tail = contents ++ byte ')' :: after)
    (hdecoded : decodeLiteralString contents = .ok text) : Plain text ∧ after = tail := by
  have hle : contents.length ≤ text.length := by
    by_contra hlong
    -- the closing parenthesis would stand in the tail
    have hclose : (text ++ byte ')' :: tail)[contents.length]? = some (byte ')') := by
      rw [hcontents, List.getElem?_append_right (Nat.le_refl _)]
      simp
    rw [List.getElem?_append_right (by omega)] at hclose
    obtain ⟨k, hk⟩ : ∃ k, contents.length - text.length = k + 1 :=
      ⟨contents.length - text.length - 1, by omega⟩
    rw [hk, List.getElem?_cons_succ] at hclose
    exact htail (List.mem_of_getElem? hclose)
  obtain ⟨hnone, heq⟩ | hshort := decodeLiteralString_shrinks hdecoded
  · subst heq
    have hafter : after = tail := by simpa using hcontents.symm
    subst hafter
    exact ⟨plainFrom_of_literal hnone h, rfl⟩
  · omega

end Pdf

end RefineId
