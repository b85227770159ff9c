/-
  RefineId.Lib.Utf8 — text and its octets.
  ════════════════════════════════════════════════════════════════════════════

  Text is a list of Unicode scalar values.  `fromUtf8` is the strict decoder; the lossy
  decoder puts U+FFFD for each ill-formed sequence, where such a sequence is the longest
  prefix that could still begin a scalar value, and at least one octet.

  Main results:
    • `utf8Step_shrinks` : each step consumes an octet, so both decoders end.
    • `fromUtf8_utf8Encode`, `fromUtf8Lossy_utf8Encode` : decoding undoes encoding.
    • `utf8Encode_of_fromUtf8` : strict decoding accepts encodings only.
-/
import Mathlib
import RefineId.Lib.Unfold

namespace RefineId.Lib

/-- Text: Unicode scalar values. -/
abbrev Text := List Char

/-! ## §1. Encoding -/

/-- `str::as_bytes`. -/
def utf8Encode (text : Text) : List UInt8 := text.flatMap String.utf8EncodeChar

/-- Characters of a literal. -/
def chars (s : String) : Text := s.toList

/-- An unsigned number as `{}` prints it. -/
def Text.decimal (n : Nat) : Text := Nat.toDigits 10 n

/-- A literal is its list of characters.  Rewriting with this spares the kernel the decoding of
    the literal's octets. -/
theorem chars_ofList (l : List Char) : chars (String.ofList l) = l := String.toList_ofList

/-! ## §2. Decoding -/

/-- The octets a multi-octet sequence may continue with. -/
def isContinuation (b : UInt8) : Bool := 0x80 ≤ b && b ≤ 0xBF

/-- Second octet of a three-octet sequence: no overlong forms and no surrogates. -/
def second3 (b second : UInt8) : Bool :=
  if b = 0xE0 then 0xA0 ≤ second && second ≤ 0xBF
  else if b = 0xED then 0x80 ≤ second && second ≤ 0x9F
  else isContinuation second

/-- Second octet of a four-octet sequence: no overlong forms, nothing above U+10FFFF. -/
def second4 (b second : UInt8) : Bool :=
  if b = 0xF0 then 0x90 ≤ second && second ≤ 0xBF
  else if b = 0xF4 then 0x80 ≤ second && second ≤ 0x8F
  else isContinuation second

/-- The scalar value of lead bits and continuation octets. -/
def scalar (lead : Nat) (continuation : List UInt8) : Char :=
  Char.ofNat (continuation.foldl (fun acc b => acc * 64 + b.toNat % 64) lead)

/-- One step: the scalar value at the front, or `none` for an ill-formed sequence, and how
    many octets it takes after the first. -/
def utf8Front (b : UInt8) (rest : List UInt8) : Option Char × Nat :=
  if b < 0x80 then (some (Char.ofNat b.toNat), 0)
  else if 0xC2 ≤ b && b ≤ 0xDF then
    match rest with
    | c :: _ => if isContinuation c then (some (scalar (b.toNat % 32) [c]), 1) else (none, 0)
    | [] => (none, 0)
  else if 0xE0 ≤ b && b ≤ 0xEF then
    match rest with
    | c :: d :: _ =>
      if !second3 b c then (none, 0)
      else if isContinuation d then (some (scalar (b.toNat % 16) [c, d]), 2)
      else (none, 1)
    | [c] => if second3 b c then (none, 1) else (none, 0)
    | [] => (none, 0)
  else if 0xF0 ≤ b && b ≤ 0xF4 then
    match rest with
    | c :: d :: e :: _ =>
      if !second4 b c then (none, 0)
      else if !isContinuation d then (none, 1)
      else if isContinuation e then (some (scalar (b.toNat % 8) [c, d, e]), 3)
      else (none, 2)
    | [c, d] =>
      if !second4 b c then (none, 0) else if isContinuation d then (none, 2) else (none, 1)
    | [c] => if second4 b c then (none, 1) else (none, 0)
    | [] => (none, 0)
  else (none, 0)

/-- One turn of a decoder. -/
def utf8Step : List UInt8 → Option Char × Option (List UInt8)
  | [] => (none, none)
  | b :: rest =>
    let (c, more) := utf8Front b rest
    (c, some (rest.drop more))

theorem utf8Step_shrinks : Shrinks utf8Step := by
  intro input item rest h
  cases input with
  | nil => exact absurd h (by simp [utf8Step])
  | cons b bs =>
    simp only [utf8Step, Prod.mk.injEq, Option.some.injEq] at h
    rw [← h.2]
    simp only [List.length_drop, List.length_cons]
    omega

/-- `str::from_utf8`. -/
def fromUtf8 (bytes : List UInt8) : Option Text := (unfold utf8Step bytes).mapM id

/-- `String::from_utf8_lossy`. -/
def fromUtf8Lossy (bytes : List UInt8) : Text :=
  (unfold utf8Step bytes).map fun c => c.getD (Char.ofNat 0xFFFD)

/-! ## §3. White space -/

/-- `char::is_whitespace`: the Unicode property White_Space. -/
def isWhitespace (c : Char) : Bool :=
  let n := c.toNat
  (9 ≤ n && n ≤ 13) || n = 0x20 || n = 0x85 || n = 0xA0 || n = 0x1680 ||
    (0x2000 ≤ n && n ≤ 0x200A) || n = 0x2028 || n = 0x2029 || n = 0x202F || n = 0x205F ||
    n = 0x3000

/-- `str::trim`. -/
def trim (text : Text) : Text :=
  ((text.dropWhile isWhitespace).reverse.dropWhile isWhitespace).reverse

example : fromUtf8Lossy [0x61, 0xE2, 0x82, 0x62] = chars "a\uFFFDb" := by decide
example : fromUtf8 (utf8Encode (chars "ä€")) = some (chars "ä€") := by decide

/-! ## §4. Decoding undoes encoding -/

theorem toNat_ofNat_small {n : Nat} (h : n < 256) : (UInt8.ofNat n).toNat = n := by
  exact UInt8.toNat_ofNat_of_lt h

/-- A scalar value is not a surrogate and not above U+10FFFF. -/
theorem char_range (c : Char) : c.toNat < 0xD800 ∨ 0xDFFF < c.toNat ∧ c.toNat < 0x110000 := by
  have h := c.valid
  simpa [UInt32.isValidChar, Nat.isValidChar] using h

theorem isContinuation_of_toNat {b : UInt8} {k : Nat} (h : b.toNat = k % 64 + 0x80) :
    isContinuation b = true := by
  simp only [isContinuation, Bool.and_eq_true, decide_eq_true_eq, UInt8.le_iff_toNat_le, h]
  constructor
  · show 0x80 ≤ _
    omega
  · show _ ≤ 0xBF
    omega

theorem front_one {b : UInt8} {n : Nat} {rest : List UInt8} (hn : n ≤ 0x7F) (hb : b.toNat = n) :
    utf8Front b rest = (some (Char.ofNat n), 0) := by
  have h1 : b < 0x80 := by
    rw [UInt8.lt_iff_toNat_lt, hb]
    show n < 0x80
    omega
  unfold utf8Front
  rw [if_pos h1, hb]

theorem front_two {b c : UInt8} {n : Nat} {rest : List UInt8} (hlow : 0x7F < n) (hn : n ≤ 0x7FF)
    (hb : b.toNat = n / 64 % 32 + 0xC0) (hc : c.toNat = n % 64 + 0x80) :
    utf8Front b (c :: rest) = (some (Char.ofNat n), 1) := by
  have h1 : ¬ b < 0x80 := by
    rw [UInt8.lt_iff_toNat_lt, hb]
    show ¬ _ < 0x80
    omega
  have h2 : (0xC2 ≤ b && b ≤ 0xDF) = true := by
    simp only [Bool.and_eq_true, decide_eq_true_eq, UInt8.le_iff_toNat_le, hb]
    constructor
    · show 0xC2 ≤ _
      omega
    · show _ ≤ 0xDF
      omega
  have hval : (b.toNat % 32) * 64 + c.toNat % 64 = n := by omega
  unfold utf8Front
  rw [if_neg h1, if_pos h2]
  simp only [isContinuation_of_toNat hc, if_true, scalar, List.foldl_cons, List.foldl_nil, hval]

theorem front_three {b c d : UInt8} {n : Nat} {rest : List UInt8} (hlow : 0x7FF < n)
    (hn : n ≤ 0xFFFF) (hr : n < 0xD800 ∨ 0xDFFF < n)
    (hb : b.toNat = n / 4096 % 16 + 0xE0) (hc : c.toNat = n / 64 % 64 + 0x80)
    (hd : d.toNat = n % 64 + 0x80) :
    utf8Front b (c :: d :: rest) = (some (Char.ofNat n), 2) := by
  have h1 : ¬ b < 0x80 := by
    rw [UInt8.lt_iff_toNat_lt, hb]
    show ¬ _ < 0x80
    omega
  have h2 : ¬ (0xC2 ≤ b && b ≤ 0xDF) = true := by
    simp only [Bool.and_eq_true, decide_eq_true_eq, UInt8.le_iff_toNat_le, hb]
    show ¬ (_ ∧ _ ≤ 0xDF)
    omega
  have h3 : (0xE0 ≤ b && b ≤ 0xEF) = true := by
    simp only [Bool.and_eq_true, decide_eq_true_eq, UInt8.le_iff_toNat_le, hb]
    show 0xE0 ≤ _ ∧ _ ≤ 0xEF
    omega
  have hsecond : second3 b c = true := by
    unfold second3
    have hE0 : b = 0xE0 ↔ b.toNat = 0xE0 := UInt8.toNat_inj.symm
    have hED : b = 0xED ↔ b.toNat = 0xED := UInt8.toNat_inj.symm
    split
    next h =>
      rw [hE0] at h
      simp only [Bool.and_eq_true, decide_eq_true_eq, UInt8.le_iff_toNat_le]
      show 0xA0 ≤ c.toNat ∧ c.toNat ≤ 0xBF
      omega
    next h =>
      split
      next h' =>
        rw [hED] at h'
        simp only [Bool.and_eq_true, decide_eq_true_eq, UInt8.le_iff_toNat_le]
        show 0x80 ≤ c.toNat ∧ c.toNat ≤ 0x9F
        omega
      next h' => exact isContinuation_of_toNat hc
  have hval : ((b.toNat % 16) * 64 + c.toNat % 64) * 64 + d.toNat % 64 = n := by omega
  unfold utf8Front
  rw [if_neg h1, if_neg h2, if_pos h3]
  simp only [hsecond, isContinuation_of_toNat hd, Bool.not_true, Bool.false_eq_true, if_false,
    if_true, scalar, List.foldl_cons, List.foldl_nil, hval]

theorem front_four {b c d e : UInt8} {n : Nat} {rest : List UInt8} (hlow : 0xFFFF < n)
    (hn : n < 0x110000)
    (hb : b.toNat = n / 262144 % 8 + 0xF0) (hc : c.toNat = n / 4096 % 64 + 0x80)
    (hd : d.toNat = n / 64 % 64 + 0x80) (he : e.toNat = n % 64 + 0x80) :
    utf8Front b (c :: d :: e :: rest) = (some (Char.ofNat n), 3) := by
  have h1 : ¬ b < 0x80 := by
    rw [UInt8.lt_iff_toNat_lt, hb]
    show ¬ _ < 0x80
    omega
  have h2 : ¬ (0xC2 ≤ b && b ≤ 0xDF) = true := by
    simp only [Bool.and_eq_true, decide_eq_true_eq, UInt8.le_iff_toNat_le, hb]
    show ¬ (_ ∧ _ ≤ 0xDF)
    omega
  have h3 : ¬ (0xE0 ≤ b && b ≤ 0xEF) = true := by
    simp only [Bool.and_eq_true, decide_eq_true_eq, UInt8.le_iff_toNat_le, hb]
    show ¬ (_ ∧ _ ≤ 0xEF)
    omega
  have h4 : (0xF0 ≤ b && b ≤ 0xF4) = true := by
    simp only [Bool.and_eq_true, decide_eq_true_eq, UInt8.le_iff_toNat_le, hb]
    show 0xF0 ≤ _ ∧ _ ≤ 0xF4
    omega
  have hsecond : second4 b c = true := by
    unfold second4
    have hF0 : b = 0xF0 ↔ b.toNat = 0xF0 := UInt8.toNat_inj.symm
    have hF4 : b = 0xF4 ↔ b.toNat = 0xF4 := UInt8.toNat_inj.symm
    split
    next h =>
      rw [hF0] at h
      simp only [Bool.and_eq_true, decide_eq_true_eq, UInt8.le_iff_toNat_le]
      show 0x90 ≤ c.toNat ∧ c.toNat ≤ 0xBF
      omega
    next h =>
      split
      next h' =>
        rw [hF4] at h'
        simp only [Bool.and_eq_true, decide_eq_true_eq, UInt8.le_iff_toNat_le]
        show 0x80 ≤ c.toNat ∧ c.toNat ≤ 0x8F
        omega
      next h' => exact isContinuation_of_toNat hc
  have hval : (((b.toNat % 8) * 64 + c.toNat % 64) * 64 + d.toNat % 64) * 64 + e.toNat % 64 = n := by
    omega
  unfold utf8Front
  rw [if_neg h1, if_neg h2, if_neg h3, if_pos h4]
  simp only [hsecond, isContinuation_of_toNat hd, isContinuation_of_toNat he, Bool.not_true,
    Bool.false_eq_true, if_false, if_true, scalar, List.foldl_cons, List.foldl_nil, hval]

/-- **A decoder reads back an encoded scalar value.** -/
theorem utf8Step_encode (c : Char) (rest : List UInt8) :
    utf8Step (String.utf8EncodeChar c ++ rest) = (some c, some rest) := by
  have hr := char_range c
  have hc : Char.ofNat c.toNat = c := Char.ofNat_toNat c
  have hv : c.val.toNat = c.toNat := rfl
  unfold String.utf8EncodeChar
  rw [hv]
  generalize c.toNat = n at hr hc
  dsimp only
  by_cases h1 : n ≤ 0x7f
  · rw [if_pos h1]
    simp only [List.cons_append, List.nil_append, utf8Step]
    rw [front_one h1 (toNat_ofNat_small (by omega)), hc]
    rfl
  rw [if_neg h1]
  by_cases h2 : n ≤ 0x7ff
  · rw [if_pos h2]
    simp only [List.cons_append, List.nil_append, utf8Step]
    rw [front_two (by omega) h2 (toNat_ofNat_small (by omega)) (toNat_ofNat_small (by omega)), hc]
    rfl
  rw [if_neg h2]
  by_cases h3 : n ≤ 0xffff
  · rw [if_pos h3]
    simp only [List.cons_append, List.nil_append, utf8Step]
    rw [front_three (by omega) h3 (by omega) (toNat_ofNat_small (by omega))
      (toNat_ofNat_small (by omega)) (toNat_ofNat_small (by omega)), hc]
    rfl
  rw [if_neg h3]
  simp only [List.cons_append, List.nil_append, utf8Step]
  rw [front_four (by omega) (by omega) (toNat_ofNat_small (by omega))
    (toNat_ofNat_small (by omega)) (toNat_ofNat_small (by omega)) (toNat_ofNat_small (by omega)), hc]
  rfl

theorem unfold_utf8Encode (text : Text) :
    unfold utf8Step (utf8Encode text) = text.map some := by
  induction text with
  | nil => rfl
  | cons c cs ih =>
    have hne : String.utf8EncodeChar c ++ utf8Encode cs ≠ [] := by
      intro h
      have hstep := utf8Step_encode c (utf8Encode cs)
      rw [h] at hstep
      exact absurd hstep (by simp [utf8Step])
    obtain ⟨b, bs, hb⟩ := List.exists_cons_of_ne_nil hne
    have hstep := utf8Step_encode c (utf8Encode cs)
    show unfold utf8Step (String.utf8EncodeChar c ++ utf8Encode cs) = _
    rw [hb] at hstep ⊢
    rw [unfold_cons utf8Step_shrinks, hstep]
    dsimp only
    rw [ih]
    rfl

/-- **Strict decoding undoes encoding.** -/
theorem fromUtf8_utf8Encode (text : Text) : fromUtf8 (utf8Encode text) = some text := by
  unfold fromUtf8
  rw [unfold_utf8Encode]
  induction text with
  | nil => rfl
  | cons c cs ih =>
    rw [List.map_cons, List.mapM_cons, ih]
    rfl

/-- **Lossy decoding undoes encoding.** -/
theorem fromUtf8Lossy_utf8Encode (text : Text) : fromUtf8Lossy (utf8Encode text) = text := by
  unfold fromUtf8Lossy
  rw [unfold_utf8Encode, List.map_map]
  exact List.map_id text

/-! ## §5. Encoding undoes decoding -/

/-- An octet between two others. -/
theorem between_iff {lo hi b : UInt8} :
    (lo ≤ b && b ≤ hi) = true ↔ lo.toNat ≤ b.toNat ∧ b.toNat ≤ hi.toNat := by
  simp only [Bool.and_eq_true, decide_eq_true_eq, UInt8.le_iff_toNat_le]

theorem second3_range {b c : UInt8} (h : second3 b c = true) :
    0x80 ≤ c.toNat ∧ c.toNat ≤ 0xBF ∧ (b.toNat = 0xE0 → 0xA0 ≤ c.toNat) ∧
      (b.toNat = 0xED → c.toNat ≤ 0x9F) := by
  unfold second3 at h
  split at h
  next hb =>
    obtain ⟨hlo, hhi⟩ := between_iff.mp h
    change 0xA0 ≤ _ at hlo
    change _ ≤ 0xBF at hhi
    rw [hb]
    exact ⟨by omega, hhi, fun _ => hlo, fun h => absurd h (by decide)⟩
  next hE0 =>
    split at h
    next hb =>
      obtain ⟨hlo, hhi⟩ := between_iff.mp h
      change 0x80 ≤ _ at hlo
      change _ ≤ 0x9F at hhi
      rw [hb]
      exact ⟨hlo, by omega, fun h => absurd h (by decide), fun _ => hhi⟩
    next hED =>
      obtain ⟨hlo, hhi⟩ := between_iff.mp h
      exact ⟨hlo, hhi, fun h => absurd (UInt8.toNat_inj.mp h) hE0,
        fun h => absurd (UInt8.toNat_inj.mp h) hED⟩

theorem second4_range {b c : UInt8} (h : second4 b c = true) :
    0x80 ≤ c.toNat ∧ c.toNat ≤ 0xBF ∧ (b.toNat = 0xF0 → 0x90 ≤ c.toNat) ∧
      (b.toNat = 0xF4 → c.toNat ≤ 0x8F) := by
  unfold second4 at h
  split at h
  next hb =>
    obtain ⟨hlo, hhi⟩ := between_iff.mp h
    change 0x90 ≤ _ at hlo
    change _ ≤ 0xBF at hhi
    rw [hb]
    exact ⟨by omega, hhi, fun _ => hlo, fun h => absurd h (by decide)⟩
  next hF0 =>
    split at h
    next hb =>
      obtain ⟨hlo, hhi⟩ := between_iff.mp h
      change 0x80 ≤ _ at hlo
      change _ ≤ 0x8F at hhi
      rw [hb]
      exact ⟨hlo, by omega, fun h => absurd h (by decide), fun _ => hhi⟩
    next hF4 =>
      obtain ⟨hlo, hhi⟩ := between_iff.mp h
      exact ⟨hlo, hhi, fun h => absurd (UInt8.toNat_inj.mp h) hF0,
        fun h => absurd (UInt8.toNat_inj.mp h) hF4⟩

theorem encodeChar_ofNat {n : Nat} (h : n < 0xD800 ∨ 0xDFFF < n ∧ n < 0x110000) :
    String.utf8EncodeChar (Char.ofNat n) =
      if n ≤ 0x7F then [UInt8.ofNat n]
      else if n ≤ 0x7FF then [UInt8.ofNat (n / 64 % 32 + 0xC0), UInt8.ofNat (n % 64 + 0x80)]
      else if n ≤ 0xFFFF then
        [UInt8.ofNat (n / 4096 % 16 + 0xE0), UInt8.ofNat (n / 64 % 64 + 0x80), UInt8.ofNat (n % 64 + 0x80)]
      else [UInt8.ofNat (n / 262144 % 8 + 0xF0), UInt8.ofNat (n / 4096 % 64 + 0x80),
        UInt8.ofNat (n / 64 % 64 + 0x80), UInt8.ofNat (n % 64 + 0x80)] := by
  have hv : (Char.ofNat n).val.toNat = n := by
    have hvalid : n.isValidChar := h
    have : (Char.ofNat n).toNat = n := by
      unfold Char.ofNat
      rw [dif_pos hvalid]
      simp [Char.ofNatAux, Char.toNat]
    exact this
  unfold String.utf8EncodeChar
  rw [hv]

theorem ofNat_eq {b : UInt8} {n : Nat} (h : n = b.toNat) : UInt8.ofNat n = b := by
  rw [h]
  exact UInt8.ofNat_toNat

theorem encode_two {b c : UInt8} (hb : 0xC2 ≤ b.toNat ∧ b.toNat ≤ 0xDF)
    (hc : 0x80 ≤ c.toNat ∧ c.toNat ≤ 0xBF) :
    String.utf8EncodeChar (scalar (b.toNat % 32) [c]) = [b, c] := by
  unfold scalar
  simp only [List.foldl_cons, List.foldl_nil]
  rw [encodeChar_ofNat (by omega), if_neg (by omega), if_pos (by omega),
    ofNat_eq (b := b) (by omega), ofNat_eq (b := c) (by omega)]

theorem encode_three {b c d : UInt8} (hb : 0xE0 ≤ b.toNat ∧ b.toNat ≤ 0xEF)
    (hc : second3 b c = true) (hd : 0x80 ≤ d.toNat ∧ d.toNat ≤ 0xBF) :
    String.utf8EncodeChar (scalar (b.toNat % 16) [c, d]) = [b, c, d] := by
  have hrange := second3_range hc
  unfold scalar
  simp only [List.foldl_cons, List.foldl_nil]
  rw [encodeChar_ofNat (by omega), if_neg (by omega), if_neg (by omega), if_pos (by omega),
    ofNat_eq (b := b) (by omega), ofNat_eq (b := c) (by omega), ofNat_eq (b := d) (by omega)]

theorem encode_four {b c d e : UInt8} (hb : 0xF0 ≤ b.toNat ∧ b.toNat ≤ 0xF4)
    (hc : second4 b c = true) (hd : 0x80 ≤ d.toNat ∧ d.toNat ≤ 0xBF)
    (he : 0x80 ≤ e.toNat ∧ e.toNat ≤ 0xBF) :
    String.utf8EncodeChar (scalar (b.toNat % 8) [c, d, e]) = [b, c, d, e] := by
  have hrange := second4_range hc
  unfold scalar
  simp only [List.foldl_cons, List.foldl_nil]
  rw [encodeChar_ofNat (by omega), if_neg (by omega), if_neg (by omega), if_neg (by omega),
    ofNat_eq (b := b) (by omega), ofNat_eq (b := c) (by omega), ofNat_eq (b := d) (by omega),
    ofNat_eq (b := e) (by omega)]

/-- **A scalar value is read off its own encoding only.** -/
theorem utf8Front_some {b : UInt8} {rest : List UInt8} {c : Char} {more : Nat}
    (h : utf8Front b rest = (some c, more)) :
    b :: rest = String.utf8EncodeChar c ++ rest.drop more := by
  unfold utf8Front at h
  split at h
  next h1 =>
    rw [UInt8.lt_iff_toNat_lt] at h1
    change _ < 0x80 at h1
    obtain ⟨hc, rfl⟩ := Prod.mk.inj h
    cases hc
    rw [encodeChar_ofNat (by omega), if_pos (by omega), ofNat_eq rfl]
    rfl
  split at h
  next h2 =>
    split at h
    next c₁ rest =>
      split at h
      next hc₁ =>
        obtain ⟨hc, rfl⟩ := Prod.mk.inj h
        cases hc
        rw [encode_two (between_iff.mp h2) (between_iff.mp hc₁)]
        rfl
      · cases h
    · cases h
  split at h
  next h3 =>
    split at h
    next c₁ c₂ rest =>
      split at h
      · cases h
      next hc₁ =>
        rw [Bool.not_eq_true, Bool.not_eq_false'] at hc₁
        split at h
        next hc₂ =>
          obtain ⟨hc, rfl⟩ := Prod.mk.inj h
          cases hc
          rw [encode_three (between_iff.mp h3) hc₁ (between_iff.mp hc₂)]
          rfl
        · cases h
    · split at h <;> cases h
    · cases h
  split at h
  next h4 =>
    split at h
    next c₁ c₂ c₃ rest =>
      split at h
      · cases h
      next hc₁ =>
        rw [Bool.not_eq_true, Bool.not_eq_false'] at hc₁
        split at h
        · cases h
        next hc₂ =>
          rw [Bool.not_eq_true, Bool.not_eq_false'] at hc₂
          split at h
          next hc₃ =>
            obtain ⟨hc, rfl⟩ := Prod.mk.inj h
            cases hc
            rw [encode_four (between_iff.mp h4) hc₁ (between_iff.mp hc₂) (between_iff.mp hc₃)]
            rfl
          · cases h
    -- every shorter rest is ill-formed
    · repeat' split at h
      all_goals cases h
    · split at h <;> cases h
    · cases h
  · cases h

/-- **Strict decoding accepts encodings only.** -/
theorem utf8Encode_of_fromUtf8 {bytes : List UInt8} {text : Text} (h : fromUtf8 bytes = some text) :
    utf8Encode text = bytes := by
  -- on the number of octets left: each turn takes the encoding of one scalar value
  induction hn : bytes.length using Nat.strong_induction_on generalizing bytes text with
  | _ n ih =>
    cases bytes with
    | nil =>
      have htext : some [] = some text := h
      injection htext with htext
      rw [← htext]
      rfl
    | cons b rest =>
      unfold fromUtf8 at h
      rw [unfold_cons utf8Step_shrinks] at h
      simp only [utf8Step] at h
      rw [List.mapM_cons] at h
      simp only [id, Option.bind_eq_bind, Option.bind_eq_some_iff, Option.pure_def,
        Option.some.injEq] at h
      obtain ⟨c, hc, text', htext', rfl⟩ := h
      have hlen : (rest.drop (utf8Front b rest).2).length < n := by
        rw [List.length_drop, ← hn, List.length_cons]
        omega
      have htail : utf8Encode text' = rest.drop (utf8Front b rest).2 := ih _ hlen htext' rfl
      have hfront : utf8Front b rest = (some c, (utf8Front b rest).2) := Prod.ext hc rfl
      have hhead := utf8Front_some hfront
      rw [hhead, ← htail]
      rfl

/-! ## §6. ASCII -/

/-- Octets as characters, for octets that are ASCII. -/
def asciiText (bytes : List UInt8) : Text := bytes.map fun b => Char.ofNat b.toNat

theorem utf8Encode_asciiText {bytes : List UInt8} (h : ∀ b ∈ bytes, b.toNat < 128) :
    utf8Encode (asciiText bytes) = bytes := by
  induction bytes with
  | nil => rfl
  | cons b bs ih =>
    have hb := h b List.mem_cons_self
    have hval : (Char.ofNat b.toNat).val.toNat = b.toNat := by
      have hvalid : b.toNat.isValidChar := Or.inl (by omega)
      rw [Char.ofNat, dif_pos hvalid]
      rfl
    have henc : String.utf8EncodeChar (Char.ofNat b.toNat) = [b] := by
      unfold String.utf8EncodeChar
      dsimp only
      rw [hval, if_pos (by omega)]
      simp
    show String.utf8EncodeChar (Char.ofNat b.toNat) ++ utf8Encode (asciiText bs) = b :: bs
    rw [henc, ih fun x hx => h x (List.mem_cons_of_mem _ hx)]
    rfl

theorem dropWhile_of_forall {text : Text} (h : ∀ c ∈ text, isWhitespace c = false) :
    text.dropWhile isWhitespace = text := by
  cases text with
  | nil => rfl
  | cons c cs => rw [List.dropWhile_cons, h c List.mem_cons_self]; rfl

theorem trim_of_forall {text : Text} (h : ∀ c ∈ text, isWhitespace c = false) :
    trim text = text := by
  unfold trim
  rw [dropWhile_of_forall h,
    dropWhile_of_forall fun c hc => h c (List.mem_reverse.mp hc), List.reverse_reverse]

/-- What is left between the characters a predicate drops at both ends. -/
def trimWhile (blank : Char → Bool) (text : Text) : Text :=
  ((text.dropWhile blank).reverse.dropWhile blank).reverse

theorem trim_eq_trimWhile (text : Text) : trim text = trimWhile isWhitespace text := rfl

/-- **A core without blanks** is what is left exactly if blanks are all that stands around it. -/
theorem trimWhile_eq_iff {blank : Char → Bool} {text core : Text}
    (hcore : ∀ c ∈ core, blank c = false) :
    trimWhile blank text = core ↔
      ∃ front back, text = front ++ core ++ back ∧ ∀ c ∈ front ++ back, blank c = true := by
  constructor
  · intro h
    -- the two ends, as the two passes drop them
    refine ⟨text.takeWhile blank,
      (((text.dropWhile blank).reverse).takeWhile blank).reverse, ?_, ?_⟩
    · have hend : text.dropWhile blank = core ++
          (((text.dropWhile blank).reverse).takeWhile blank).reverse := by
        rw [← h, trimWhile, ← List.reverse_append, List.takeWhile_append_dropWhile,
          List.reverse_reverse]
      rw [List.append_assoc, ← hend, List.takeWhile_append_dropWhile]
    · intro c hc
      obtain hc | hc := List.mem_append.mp hc
      · exact List.mem_takeWhile_imp hc
      · exact List.mem_takeWhile_imp (List.mem_reverse.mp hc)
  · intro h
    obtain ⟨front, back, rfl, hblank⟩ := h
    have hfront : ∀ c ∈ front, blank c = true := fun c hc => hblank c (List.mem_append_left _ hc)
    have hback : ∀ c ∈ back.reverse, blank c = true := fun c hc =>
      hblank c (List.mem_append_right _ (List.mem_reverse.mp hc))
    rw [trimWhile, List.append_assoc, List.dropWhile_append_of_pos hfront]
    cases core with
    | nil =>
      -- nothing stands between the blanks: the first pass drops them all
      rw [List.nil_append, List.dropWhile_eq_nil_iff.mpr fun c hc =>
        hblank c (List.mem_append_right _ hc)]
      rfl
    | cons c core =>
      have hkeep : ((c :: core) ++ back).dropWhile blank = (c :: core) ++ back :=
        List.dropWhile_cons_of_neg (by rw [hcore c List.mem_cons_self]; decide)
      have hlast : ((c :: core).reverse).dropWhile blank = (c :: core).reverse := by
        cases hrev : (c :: core).reverse with
        | nil => rfl
        | cons d rest =>
          have hmem : d ∈ c :: core := List.mem_reverse.mp (hrev ▸ List.mem_cons_self)
          exact List.dropWhile_cons_of_neg (by rw [hcore d hmem]; decide)
      rw [hkeep, List.reverse_append, List.dropWhile_append_of_pos hback, hlast,
        List.reverse_reverse]

end RefineId.Lib
