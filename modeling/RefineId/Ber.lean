/-
  RefineId.Ber — the BER reader and writer.
  ════════════════════════════════════════════════════════════════════════════

  `crates/refineid-lib-core/src/ber.rs` and its twin in `refineid-doc-sign` are
  the one place where tag-length-value octets are taken apart.  Every parser of
  the repository (certificates, OCSP, CMS, time-stamp tokens) walks its input
  with `BerTlvAny::parse` and `BerTlvIter`, and every encoder writes with `tlv`.

  The reader is a cursor over a byte slice; here the cursor is the remaining
  list, so a failed read is a failed pattern match.

  Main results:
    • `parse_spec`      : an accepted element is a prefix of the input, and
                          `size` is the length of that prefix.
    • `parse_tlv`       : what `tlv` writes, `parse` reads back, whatever follows.
    • `children_cons`   : the iterator's loop equation; it ends on every input.
    • `children_tlv`    : the iterator reads back what `tlv` wrote, one after the other.
-/
import RefineId.Lib.Unfold

namespace RefineId

/-- A byte string of the source (`&[u8]` and `Vec<u8>`). -/
abbrev Bytes := List UInt8

/-- `usize::MAX`. -/
def usizeMax : Nat := 2 ^ 64 - 1

namespace Ber

/-! ## §1. Errors and elements -/

/-- `BerError`. -/
inductive BerError where
  | empty
  | truncated
  | unsupportedLengthForm
  | unexpectedTag (expected got : Nat)
  deriving Repr, DecidableEq

/-- `BerTlvAny`: one element, with the number of bytes it took. -/
structure BerTlvAny where
  tag : Nat
  value : Bytes
  size : Nat
  deriving Repr, DecidableEq

/-! ## §2. The reader -/

/-- The tag octets: one, or two when the low five bits of the first are all set. -/
def parseTag : Bytes → Except BerError (Nat × Bytes)
  | [] => .error .empty
  | first :: rest =>
    if first.toNat % 32 = 31 then
      match rest with
      | [] => .error .truncated
      | second :: rest' => .ok (first.toNat * 256 + second.toNat, rest')
    else .ok (first.toNat, rest)

/-- Big-endian value of the length octets. -/
def beValue (bs : Bytes) : Nat := bs.foldl (fun acc b => acc * 256 + b.toNat) 0

/-- Number of length octets of the long forms the reader knows. -/
def longFormBytes (lenFirst : UInt8) : Option Nat :=
  if lenFirst = 0x81 then some 1
  else if lenFirst = 0x82 then some 2
  else if lenFirst = 0x83 then some 3
  else if lenFirst = 0x84 then some 4
  else none

/-- The length octets.  The source compares the first one with `LONG_FORM_1B`
    (0x81), so 0x80 is read as the direct length 128. -/
def parseLength : Bytes → Except BerError (Nat × Bytes)
  | [] => .error .truncated
  | lenFirst :: rest =>
    if lenFirst < 0x81 then .ok (lenFirst.toNat, rest)
    else match longFormBytes lenFirst with
      | none => .error .unsupportedLengthForm
      | some n =>
        if n ≤ rest.length then .ok (beValue (rest.take n), rest.drop n)
        else .error .truncated

/-- `BerTlvAny::parse`. -/
def BerTlvAny.parse (bytes : Bytes) : Except BerError BerTlvAny := do
  let (tag, afterTag) ← parseTag bytes
  let (length, body) ← parseLength afterTag
  if length ≤ body.length then
    .ok ⟨tag, body.take length, bytes.length - body.length + length⟩
  else .error .truncated

/-- `BerTlv::<T>::parse`: the element must carry the given tag. -/
def parseExpect (tag : Nat) (bytes : Bytes) : Except BerError BerTlvAny := do
  let t ← BerTlvAny.parse bytes
  if t.tag ≠ tag then .error (.unexpectedTag tag t.tag) else .ok t

/-- `BerTlvIter::next`: an error empties the iterator. -/
def iterNext (remaining : Bytes) : Except BerError BerTlvAny × Option Bytes :=
  match BerTlvAny.parse remaining with
  | .ok t => (.ok t, some (remaining.drop t.size))
  | .error e => (.error e, none)

/-- `BerTlvIter::new(value)` run to its end. -/
def children (value : Bytes) : List (Except BerError BerTlvAny) :=
  Lib.unfold iterNext value

/-! ## §3. The writer -/

/-- `BerEncoder::push_length`.  `none` is the source's panic above `u32::MAX`. -/
def pushLength (len : Nat) : Option Bytes :=
  if len < 0x80 then some [UInt8.ofNat len]
  else if len ≤ 0xFF then some [0x81, UInt8.ofNat len]
  else if len ≤ 0xFFFF then some [0x82, UInt8.ofNat (len / 256), UInt8.ofNat len]
  else if len ≤ 0xFFFFFF then
    some [0x83, UInt8.ofNat (len / 65536), UInt8.ofNat (len / 256), UInt8.ofNat len]
  else if len ≤ 0xFFFFFFFF then
    some [0x84, UInt8.ofNat (len / 16777216), UInt8.ofNat (len / 65536),
      UInt8.ofNat (len / 256), UInt8.ofNat len]
  else none

/-- `tlv(tag, value)`. -/
def tlv (tag : UInt8) (value : Bytes) : Option Bytes :=
  (pushLength value.length).map fun len => tag :: len ++ value

/-! ## §4. What the reader accepts -/

theorem parseTag_spec {bytes rest : Bytes} {tag : Nat}
    (h : parseTag bytes = .ok (tag, rest)) :
    ∃ head, head ≠ [] ∧ bytes = head ++ rest := by
  cases bytes with
  | nil => simp [parseTag] at h
  | cons first tl =>
    simp only [parseTag] at h
    split at h
    · cases tl with
      | nil => simp at h
      | cons second tl' =>
        obtain ⟨-, rfl⟩ : _ ∧ tl' = rest := by simpa using h
        exact ⟨[first, second], by simp, by simp⟩
    · obtain ⟨-, rfl⟩ : _ ∧ tl = rest := by simpa using h
      exact ⟨[first], by simp, by simp⟩

theorem parseLength_spec {bytes rest : Bytes} {len : Nat}
    (h : parseLength bytes = .ok (len, rest)) :
    ∃ head, head ≠ [] ∧ bytes = head ++ rest := by
  cases bytes with
  | nil => simp [parseLength] at h
  | cons lenFirst tl =>
    simp only [parseLength] at h
    split at h
    · obtain ⟨-, rfl⟩ : _ ∧ tl = rest := by simpa using h
      exact ⟨[lenFirst], by simp, by simp⟩
    · split at h
      · simp at h
      next n _ =>
        split at h
        · obtain ⟨-, rfl⟩ : _ ∧ tl.drop n = rest := by simpa using h
          exact ⟨lenFirst :: tl.take n, by simp, by simp⟩
        · simp at h

/-- **An accepted element is a prefix of the input**: header, value, rest, and
    `size` counts header and value. -/
theorem parse_spec {bytes : Bytes} {t : BerTlvAny} (h : BerTlvAny.parse bytes = .ok t) :
    ∃ head rest, 2 ≤ head.length ∧ bytes = head ++ t.value ++ rest ∧
      t.size = head.length + t.value.length := by
  simp only [BerTlvAny.parse, bind, Except.bind] at h
  split at h
  · simp at h
  next p hTag =>
    obtain ⟨tag, afterTag⟩ := p
    simp only at h
    split at h
    · simp at h
    next q hLen =>
      obtain ⟨len, body⟩ := q
      simp only at h
      split at h
      next hFits =>
        obtain ⟨h1, hne1, rfl⟩ := parseTag_spec hTag
        obtain ⟨h2, hne2, rfl⟩ := parseLength_spec hLen
        have hp1 := List.length_pos_iff.mpr hne1
        have hp2 := List.length_pos_iff.mpr hne2
        injection h with h
        subst h
        refine ⟨h1 ++ h2, body.drop len, by simp; omega, by simp, ?_⟩
        simp only [List.length_append, List.length_take]
        omega
      · simp at h

theorem parse_size_le {bytes : Bytes} {t : BerTlvAny} (h : BerTlvAny.parse bytes = .ok t) :
    0 < t.size ∧ t.size ≤ bytes.length := by
  obtain ⟨head, rest, hHead, rfl, hSize⟩ := parse_spec h
  simp only [List.length_append]
  omega

theorem beValue_lt (bs : Bytes) : beValue bs < 256 ^ bs.length := by
  induction bs using List.reverseRecOn with
  | nil => simp [beValue]
  | append_singleton rest b ih =>
    have hb : b.toNat < 256 := b.toNat_lt
    have happ : beValue (rest ++ [b]) = beValue rest * 256 + b.toNat := by
      simp [beValue, List.foldl_append]
    rw [happ, List.length_append, List.length_singleton, pow_succ]
    omega

theorem beValue_append (a b : Bytes) : beValue (a ++ b) = beValue a * 256 ^ b.length + beValue b := by
  induction b using List.reverseRecOn with
  | nil => simp [beValue]
  | append_singleton b last ih =>
    have hstep (bs : Bytes) : beValue (bs ++ [last]) = beValue bs * 256 + last.toNat := by
      simp [beValue, List.foldl_append]
    rw [← List.append_assoc, hstep, hstep, ih, List.length_append, List.length_singleton, pow_succ]
    ring

/-- The number of the first octets. -/
theorem beValue_take (bs : Bytes) (k : Nat) :
    beValue (bs.take k) = beValue bs / 256 ^ (bs.length - k) := by
  have hsplit : beValue bs = beValue (bs.take k) * 256 ^ (bs.length - k) + beValue (bs.drop k) := by
    conv_lhs => rw [← List.take_append_drop k bs]
    rw [beValue_append, List.length_drop]
  have hlt := beValue_lt (bs.drop k)
  rw [List.length_drop] at hlt
  rw [hsplit, Nat.mul_comm, Nat.mul_add_div (by positivity), Nat.div_eq_of_lt hlt, Nat.add_zero]

theorem beValue_cons (b : UInt8) (rest : Bytes) :
    beValue (b :: rest) = b.toNat * 256 ^ rest.length + beValue rest := by
  have h := beValue_append [b] rest
  simpa [beValue] using h

theorem longFormBytes_le {lenFirst : UInt8} {n : Nat} (h : longFormBytes lenFirst = some n) :
    n ≤ 4 := by
  unfold longFormBytes at h
  repeat' split at h
  all_goals first
    | (injection h with h; omega)
    | cases h

theorem parseLength_lt {bytes rest : Bytes} {len : Nat}
    (h : parseLength bytes = .ok (len, rest)) : len < 2 ^ 32 := by
  cases bytes with
  | nil => simp [parseLength] at h
  | cons lenFirst tl =>
    simp only [parseLength] at h
    split at h
    · injection h with h
      injection h with hlen
      have : lenFirst.toNat < 256 := lenFirst.toNat_lt
      omega
    · split at h
      · simp at h
      next n hn =>
        split at h
        next hfits =>
          injection h with h
          injection h with hlen
          have hn4 : n ≤ 4 := longFormBytes_le hn
          have hval : beValue (tl.take n) < 256 ^ (tl.take n).length := beValue_lt _
          have htake : (tl.take n).length ≤ 4 := by
            rw [List.length_take]
            omega
          calc len = beValue (tl.take n) := hlen.symm
            _ < 256 ^ (tl.take n).length := hval
            _ ≤ 256 ^ 4 := Nat.pow_le_pow_right (by decide) htake
            _ = 2 ^ 32 := by norm_num
        · simp at h

/-- No value the reader gives is too long for the writer. -/
theorem parse_value_lt {bytes : Bytes} {t : BerTlvAny} (h : BerTlvAny.parse bytes = .ok t) :
    t.value.length < 2 ^ 32 := by
  simp only [BerTlvAny.parse, bind, Except.bind] at h
  split at h
  · simp at h
  next p hTag =>
    obtain ⟨tag, afterTag⟩ := p
    simp only at h
    split at h
    · simp at h
    next q hLen =>
      obtain ⟨len, body⟩ := q
      simp only at h
      split at h
      next hFits =>
        have hlt : len < 2 ^ 32 := parseLength_lt hLen
        injection h with h
        subst h
        simp only [List.length_take]
        omega
      · simp at h

theorem iterNext_shrinks : Lib.Shrinks iterNext := by
  intro input item rest h
  simp only [iterNext] at h
  split at h
  next t ht =>
    have hs := parse_size_le ht
    obtain ⟨-, rfl⟩ : _ ∧ input.drop t.size = rest := by simpa using h
    simp only [List.length_drop]
    omega
  · simp at h

/-- **The iterator's loop equation.** -/
theorem children_cons (b : UInt8) (bs : Bytes) :
    children (b :: bs) =
      match BerTlvAny.parse (b :: bs) with
      | .ok t => .ok t :: children ((b :: bs).drop t.size)
      | .error e => [.error e] := by
  rw [children, Lib.unfold_cons iterNext_shrinks, iterNext]
  cases BerTlvAny.parse (b :: bs) <;> rfl

theorem mem_children_value_lt {value : Bytes} {t : BerTlvAny} (h : .ok t ∈ children value) :
    t.value.length < 2 ^ 32 := by
  -- on the length of what is left to read
  induction hn : value.length using Nat.strong_induction_on generalizing value with
  | _ n ih =>
    cases value with
    | nil => simp [children] at h
    | cons b bs =>
      rw [children_cons] at h
      split at h
      next u hu =>
        rcases List.mem_cons.mp h with h | h
        · injection h with h
          rw [h]
          exact parse_value_lt hu
        · have hsize := parse_size_le hu
          refine ih _ ?_ h rfl
          rw [List.length_drop]
          omega
      · simp at h

/-! ## §5. Reading back what the writer wrote -/

theorem uint8_ofNat_toNat (n : Nat) : (UInt8.ofNat n).toNat = n % 256 := by
  simp [UInt8.toNat_ofNat']

theorem pushLength_isSome {len : Nat} (h : len < 2 ^ 32) : (pushLength len).isSome := by
  unfold pushLength
  repeat' split
  all_goals first | rfl | omega

theorem uint8_ofNat_lt_iff {n : Nat} (h : n < 0x80) : UInt8.ofNat n < 0x81 := by
  rw [UInt8.lt_iff_toNat_lt, uint8_ofNat_toNat]
  simp only [UInt8.reduceToNat]
  omega

/-- **Length round trip**: the reader finds the length the writer encoded. -/
theorem parseLength_pushLength {len : Nat} {out rest : Bytes} (h : pushLength len = some out) :
    parseLength (out ++ rest) = .ok (len, rest) := by
  unfold pushLength at h
  split at h
  next hShort =>
    injection h with h
    subst h
    have : (UInt8.ofNat len).toNat = len := by rw [uint8_ofNat_toNat]; omega
    simp [parseLength, uint8_ofNat_lt_iff hShort, this]
  · split at h
    · injection h with h
      subst h
      simp [parseLength, longFormBytes, beValue]
      omega
    · split at h
      · injection h with h
        subst h
        simp [parseLength, longFormBytes, beValue]
        omega
      · split at h
        · injection h with h
          subst h
          simp [parseLength, longFormBytes, beValue]
          omega
        · split at h
          · injection h with h
            subst h
            simp [parseLength, longFormBytes, beValue]
            omega
          · simp at h

theorem parseTag_single {tag : UInt8} {rest : Bytes} (h : tag.toNat % 32 ≠ 31) :
    parseTag (tag :: rest) = .ok (tag.toNat, rest) := by
  simp [parseTag, h]

/-- **Element round trip**: `parse` reads back `tlv tag value`, whatever follows it. -/
theorem parse_tlv {tag : UInt8} {value out rest : Bytes} (hTag : tag.toNat % 32 ≠ 31)
    (h : tlv tag value = some out) :
    BerTlvAny.parse (out ++ rest) = .ok ⟨tag.toNat, value, out.length⟩ := by
  obtain ⟨len, hLen, rfl⟩ : ∃ len, pushLength value.length = some len ∧
      tag :: len ++ value = out := by
    simpa [tlv, Option.map_eq_some_iff] using h
  have hl : parseLength (len ++ (value ++ rest)) = .ok (value.length, value ++ rest) :=
    parseLength_pushLength hLen
  simp only [BerTlvAny.parse, List.cons_append, List.append_assoc, parseTag_single hTag, bind,
    Except.bind, hl]
  simp
  omega

theorem tlv_ne_nil {tag : UInt8} {value out : Bytes} (h : tlv tag value = some out) :
    out ≠ [] := by
  obtain ⟨len, -, rfl⟩ : ∃ len, pushLength value.length = some len ∧
      tag :: len ++ value = out := by
    simpa [tlv, Option.map_eq_some_iff] using h
  simp

/-- **The iterator reads back one element after the other.** -/
theorem children_tlv {tag : UInt8} {value out rest : Bytes} (hTag : tag.toNat % 32 ≠ 31)
    (h : tlv tag value = some out) :
    children (out ++ rest) = .ok ⟨tag.toNat, value, out.length⟩ :: children rest := by
  have hp : BerTlvAny.parse (out ++ rest) = .ok ⟨tag.toNat, value, out.length⟩ :=
    parse_tlv hTag h
  cases hout : out with
  | nil => exact absurd hout (tlv_ne_nil h)
  | cons b bs =>
    rw [hout] at hp
    rw [List.cons_append, children_cons, ← List.cons_append, hp]
    simp

/-- The typed reader reads back an element that fills its input. -/
theorem parseExpect_tlv {tag : UInt8} {value out : Bytes} (hTag : tag.toNat % 32 ≠ 31)
    (h : tlv tag value = some out) :
    parseExpect tag.toNat out = .ok ⟨tag.toNat, value, out.length⟩ := by
  have hp : BerTlvAny.parse (out ++ []) = .ok ⟨tag.toNat, value, out.length⟩ :=
    parse_tlv hTag h
  rw [List.append_nil] at hp
  simp [parseExpect, hp, bind, Except.bind]

end Ber

end RefineId
