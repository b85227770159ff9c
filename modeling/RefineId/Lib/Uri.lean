/-
  RefineId.Lib.Uri — relative references and percent-encoding.
  ════════════════════════════════════════════════════════════════════════════

  A relative reference as RFC 3986 takes it apart: the fragment after the first `#`, the
  query after the first `?`, no colon in the first segment of the path, since that would
  be a scheme, and `%` with two hexadecimal digits for an octet.

  Main results:
    • `percentDecode_eq_self_iff` : decoding changes nothing exactly if there is no escape.
    • `readRelative_eq_self_iff`  : which names read as themselves.
-/
import RefineId.Lib.Unfold
import RefineId.Lib.Utf8

namespace RefineId.Lib.Uri

/-! ## §1. Percent-encoding -/

/-- The value of a hexadecimal digit. -/
def hexValue (b : UInt8) : Option UInt8 :=
  if 48 ≤ b ∧ b ≤ 57 then some (b - 48)
  else if 65 ≤ b ∧ b ≤ 70 then some (b - 55)
  else if 97 ≤ b ∧ b ≤ 102 then some (b - 87)
  else none

/-- The octet of two hexadecimal digits at the front, and what follows. -/
def hexFront : List UInt8 → Option (UInt8 × List UInt8)
  | a :: b :: rest => do
    let high ← hexValue a
    let low ← hexValue b
    return (16 * high + low, rest)
  | _ => none

/-- One octet of a decoded text. -/
def escapeStep : List UInt8 → UInt8 × Option (List UInt8)
  | [] => (0, none)
  | b :: rest =>
    if b = 37 then
      match hexFront rest with
      | some (value, after) => (value, some after)
      | none => (b, some rest)
    else (b, some rest)

/-- Every escape replaced by its octet; a `%` that is none stays. -/
def percentDecode (bytes : List UInt8) : List UInt8 := unfold escapeStep bytes

/-- Whether there is an escape anywhere. -/
def hasEscape : List UInt8 → Bool
  | [] => false
  | b :: rest => (b = 37 && (hexFront rest).isSome) || hasEscape rest

theorem hexFront_length {bytes after : List UInt8} {value : UInt8}
    (h : hexFront bytes = some (value, after)) : after.length + 2 = bytes.length := by
  match bytes, h with
  | a :: b :: rest, h =>
    obtain ⟨high, -, h⟩ := Option.bind_eq_some_iff.mp h
    obtain ⟨low, -, h⟩ := Option.bind_eq_some_iff.mp h
    obtain ⟨-, rfl⟩ : _ ∧ rest = after := by simpa using h
    rfl

theorem escapeStep_shrinks : Shrinks escapeStep := by
  intro input item rest h
  cases input with
  | nil => simp [escapeStep] at h
  | cons b tl =>
    simp only [escapeStep] at h
    split at h
    · split at h
      next value after hfront =>
        obtain ⟨-, rfl⟩ : _ ∧ after = rest := by simpa using h
        have := hexFront_length hfront
        simp only [List.length_cons]
        omega
      · obtain ⟨-, rfl⟩ : _ ∧ tl = rest := by simpa using h
        simp
    · obtain ⟨-, rfl⟩ : _ ∧ tl = rest := by simpa using h
      simp

/-- What stands first decides: an octet is taken as it is, or an escape is. -/
theorem percentDecode_cons (b : UInt8) (rest : List UInt8) :
    (hasEscape (b :: rest) = hasEscape rest ∧
      percentDecode (b :: rest) = b :: percentDecode rest) ∨
    (hasEscape (b :: rest) = true ∧ ∃ value after, after.length + 2 = rest.length ∧
      percentDecode (b :: rest) = value :: percentDecode after) := by
  unfold percentDecode
  rw [unfold_cons escapeStep_shrinks]
  by_cases hb : b = 37
  · cases hfront : hexFront rest with
    | none =>
      left
      simp [escapeStep, hasEscape, hb, hfront]
    | some found =>
      obtain ⟨value, after⟩ := found
      right
      refine ⟨by simp [hasEscape, hb, hfront], value, after, hexFront_length hfront, ?_⟩
      simp [escapeStep, hb, hfront]
  · left
    simp [escapeStep, hasEscape, hb]

theorem length_percentDecode_le (bytes : List UInt8) :
    (percentDecode bytes).length ≤ bytes.length := by
  -- an escape jumps over two octets, so the induction is on the length
  induction hn : bytes.length using Nat.strong_induction_on generalizing bytes with
  | _ n ih =>
    cases bytes with
    | nil => exact Nat.zero_le _
    | cons b rest =>
      rw [List.length_cons] at hn
      obtain ⟨-, heq⟩ | ⟨-, value, after, hlen, heq⟩ := percentDecode_cons b rest
      · have := ih rest.length (by omega) rest rfl
        rw [heq, List.length_cons]
        omega
      · have := ih after.length (by omega) after rfl
        rw [heq, List.length_cons]
        omega

/-- **Decoding changes nothing exactly if there is no escape.** -/
theorem percentDecode_eq_self_iff (bytes : List UInt8) :
    percentDecode bytes = bytes ↔ hasEscape bytes = false := by
  induction bytes with
  | nil => exact ⟨fun _ => rfl, fun _ => rfl⟩
  | cons b rest ih =>
    obtain ⟨hescape, heq⟩ | ⟨hescape, value, after, hlen, heq⟩ := percentDecode_cons b rest
    · rw [hescape, heq, List.cons.injEq, ih]
      simp
    · rw [hescape, heq]
      refine iff_of_false (fun h => ?_) (by simp)
      have hshort := length_percentDecode_le after
      have hlen' := congrArg List.length h
      simp only [List.length_cons] at hlen'
      omega

/-! ## §2. Relative references -/

/-- The octets of the path a relative reference names. -/
def readRelative (uri : Text) : Option (List UInt8) :=
  let path := (uri.takeWhile (· ≠ '#')).takeWhile (· ≠ '?')
  if (path.takeWhile (· ≠ '/')).contains ':' then none
  else some (percentDecode (utf8Encode path))

/-- The names that need no encoding to be read as themselves. -/
def plainReference (name : Text) : Bool :=
  !name.contains '#' && !name.contains '?' && !(name.takeWhile (· ≠ '/')).contains ':' &&
    !hasEscape (utf8Encode name)

theorem length_utf8Encode_ge (text : Text) : text.length ≤ (utf8Encode text).length := by
  induction text with
  | nil => exact Nat.le_refl _
  | cons c cs ih =>
    have hc : 0 < (String.utf8EncodeChar c).length := by
      rw [String.length_utf8EncodeChar]
      exact Char.utf8Size_pos c
    show (c :: cs).length ≤ (String.utf8EncodeChar c ++ utf8Encode cs).length
    rw [List.length_append, List.length_cons]
    omega

theorem takeWhile_ne_eq_self {a : Char} {text : Text} (h : a ∉ text) :
    text.takeWhile (· ≠ a) = text := by
  induction text with
  | nil => rfl
  | cons c cs ih =>
    rw [List.mem_cons, not_or] at h
    rw [List.takeWhile_cons_of_pos (by simpa using Ne.symm h.1), ih h.2]

theorem not_mem_takeWhile_ne (a : Char) (text : Text) : a ∉ text.takeWhile (· ≠ a) := by
  induction text with
  | nil => simp
  | cons c cs ih =>
    by_cases hca : c = a
    · simp [hca]
    · rw [List.takeWhile_cons_of_pos (by simpa using hca), List.mem_cons, not_or]
      exact ⟨Ne.symm hca, ih⟩

/-- **The names that read as themselves.** -/
theorem readRelative_eq_self_iff (name : Text) :
    readRelative name = some (utf8Encode name) ↔ plainReference name = true := by
  have hplain : plainReference name = true ↔ '#' ∉ name ∧ '?' ∉ name ∧
      ':' ∉ name.takeWhile (· ≠ '/') ∧ hasEscape (utf8Encode name) = false := by
    simp [plainReference, and_assoc]
  rw [hplain]
  constructor
  · intro h
    unfold readRelative at h
    simp only [Option.ite_none_left_eq_some] at h
    obtain ⟨hcolon, h⟩ := h
    injection h with h
    -- nothing was split off, since the octets of the path are as many as those of the name
    have hpath : (name.takeWhile (· ≠ '#')).takeWhile (· ≠ '?') = name := by
      obtain ⟨tail, htail⟩ := (List.takeWhile_prefix (fun c => decide (c ≠ '?'))).trans
        (List.takeWhile_prefix (l := name) (fun c => decide (c ≠ '#')))
      have hle := length_percentDecode_le
        (utf8Encode ((name.takeWhile (· ≠ '#')).takeWhile (· ≠ '?')))
      have hbytes := congrArg (fun t => (utf8Encode t).length) htail
      have htailLen := length_utf8Encode_ge tail
      rw [h] at hle
      simp only [utf8Encode, List.flatMap_append, List.length_append] at hbytes hle htailLen
      have hnil : tail = [] := List.length_eq_zero_iff.mp (by omega)
      rw [hnil, List.append_nil] at htail
      exact htail
    have hhash : '#' ∉ name := by
      have hno := not_mem_takeWhile_ne '#' name
      intro hmem
      rw [← hpath] at hmem
      exact hno ((List.takeWhile_prefix _).subset hmem)
    have hquery : '?' ∉ name := by
      have hno := not_mem_takeWhile_ne '?' (name.takeWhile (· ≠ '#'))
      rwa [hpath] at hno
    rw [hpath] at hcolon h
    refine ⟨hhash, hquery, by simpa using hcolon, (percentDecode_eq_self_iff _).mp h⟩
  · intro ⟨hhash, hquery, hcolon, hescape⟩
    simp only [readRelative, takeWhile_ne_eq_self hhash, takeWhile_ne_eq_self hquery,
      (percentDecode_eq_self_iff _).mpr hescape, List.contains_iff_mem, if_neg hcolon]

end RefineId.Lib.Uri
