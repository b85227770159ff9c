/-
  RefineId.Base64 — base64, as manifests carry digests.
  ════════════════════════════════════════════════════════════════════════════

  `crates/refineid-doc-sign/src/base64.rs`: the encoder of the writers and the strict
  decoder of the offline verifier.

  Main results:
    • `decode_encode` : the decoder reads back what the encoder wrote.
-/
import RefineId.Ber
import RefineId.Lib.Outcome
import RefineId.Lib.Utf8

namespace RefineId

namespace Base64

open Lib

/-! ## §1. The alphabet -/

/-- `ALPHABET`, by value. -/
def alphabet (n : Nat) : UInt8 :=
  if n < 26 then UInt8.ofNat (65 + n)
  else if n < 52 then UInt8.ofNat (97 + (n - 26))
  else if n < 62 then UInt8.ofNat (48 + (n - 52))
  else if n = 62 then 43
  else 47

/-- `sextet_value`. -/
def sextetValue (byte : UInt8) : Except String Nat :=
  if 65 ≤ byte && byte ≤ 90 then .ok (byte.toNat - 65)
  else if 97 ≤ byte && byte ≤ 122 then .ok (byte.toNat - 97 + 26)
  else if 48 ≤ byte && byte ≤ 57 then .ok (byte.toNat - 48 + 52)
  else if byte = 43 then .ok 62
  else if byte = 47 then .ok 63
  else .error "invalid base64 character"

/-- `=`. -/
def pad : UInt8 := 61

/-! ## §2. Encoding -/

/-- One quantum: a chunk of one to three octets, padded to four characters. -/
def encodeChunk (chunk : Bytes) : Bytes :=
  let octet (i : Nat) := (chunk[i]?.getD 0).toNat
  let packed := (octet 0 * 256 + octet 1) * 256 + octet 2
  let character (i : Nat) := packed / 64 ^ (3 - i) % 64
  [0, 1, 2, 3].map fun i => if i ≤ chunk.length then alphabet (character i) else pad

/-- `encode`. -/
def encode : Bytes → Bytes
  | [] => []
  | [a] => encodeChunk [a]
  | [a, b] => encodeChunk [a, b]
  | a :: b :: c :: rest => encodeChunk [a, b, c] ++ encode rest

/-! ## §3. Decoding -/

/-- The characters of a quantum, most significant first. -/
def packSextets : Nat → Bytes → Except String Nat
  | packed, [] => .ok packed
  | packed, byte :: rest => do
    let sextet ← sextetValue byte
    packSextets (packed * 64 + sextet) rest

/-- `decode_quad`: the last `padding` characters are `=`. -/
def decodeQuad (quad : Bytes) (padding : Nat) : Except String Bytes := do
  let packed ← packSextets 0 (quad.take (4 - padding))
  ensure (packed % 4 ^ padding = 0) "base64 has nonzero trailing bits"
  let packed := packed * 64 ^ padding
  return (List.range (3 - padding)).map fun i => UInt8.ofNat (packed / 256 ^ (2 - i) % 256)

/-- The quanta; the padding belongs to the last one. -/
def decodeQuads (padding : Nat) : Bytes → Except String Bytes
  | [] => .error "base64 input vanished"
  | [a, b, c, d] => decodeQuad [a, b, c, d] padding
  | a :: b :: c :: d :: rest => do
    let octets ← decodeQuad [a, b, c, d] 0
    let more ← decodeQuads padding rest
    return octets ++ more
  | _ => .error "base64 input vanished"

/-- `decode` of trimmed, nonempty input. -/
def decodeTrimmed (bytes : Bytes) : Except String Bytes := do
  ensure (bytes.length % 4 = 0) "base64 length is not a multiple of four"
  let padding := (bytes.reverse.takeWhile fun b => b = pad).length
  ensure (padding ≤ 2) "base64 has too much padding"
  ensure (!(bytes.take (bytes.length - padding)).contains pad) "base64 padding is not trailing"
  decodeQuads padding bytes

/-- `decode`. -/
def decode (input : Text) : Except String Bytes :=
  let bytes := utf8Encode (trim input)
  if bytes.isEmpty then .ok [] else decodeTrimmed bytes

/-! ## §4. Decoding undoes encoding -/

theorem sextetValue_alphabet {n : Nat} (h : n < 64) : sextetValue (alphabet n) = .ok n := by
  have hall : ∀ k : Fin 64, sextetValue (alphabet k) = .ok k.val := by decide
  exact hall ⟨n, h⟩

/-- The characters of an encoding are ASCII, not white space, and not the padding. -/
theorem alphabet_plain {n : Nat} (h : n < 64) :
    (alphabet n).toNat < 128 ∧ isWhitespace (Char.ofNat (alphabet n).toNat) = false ∧
      alphabet n ≠ pad := by
  have hall : ∀ k : Fin 64, (alphabet k).toNat < 128 ∧
      isWhitespace (Char.ofNat (alphabet k).toNat) = false ∧ alphabet k ≠ pad := by decide
  exact hall ⟨n, h⟩

/-- How many padding characters an encoding ends with. -/
def paddingOf : Bytes → Nat
  | [] => 0
  | [_] => 2
  | [_, _] => 1
  | _ :: _ :: _ :: rest => paddingOf rest

theorem encodeChunk_length (chunk : Bytes) : (encodeChunk chunk).length = 4 := by
  simp [encodeChunk]

theorem chunk_three (a b c : UInt8) :
    encodeChunk [a, b, c] =
      let packed := (a.toNat * 256 + b.toNat) * 256 + c.toNat
      [alphabet (packed / 262144 % 64), alphabet (packed / 4096 % 64), alphabet (packed / 64 % 64),
        alphabet (packed % 64)] := by
  simp [encodeChunk]

theorem chunk_two (a b : UInt8) :
    encodeChunk [a, b] =
      let packed := (a.toNat * 256 + b.toNat) * 256
      [alphabet (packed / 262144 % 64), alphabet (packed / 4096 % 64), alphabet (packed / 64 % 64),
        pad] := by
  simp [encodeChunk]

theorem chunk_one (a : UInt8) :
    encodeChunk [a] =
      let packed := a.toNat * 65536
      [alphabet (packed / 262144 % 64), alphabet (packed / 4096 % 64), pad, pad] := by
  have h : (a.toNat * 256) * 256 = a.toNat * 65536 := by omega
  simp [encodeChunk, h]

theorem packSextets_cons {packed n : Nat} {rest : Bytes} (h : n < 64) :
    packSextets packed (alphabet n :: rest) = packSextets (packed * 64 + n) rest := by
  simp only [packSextets, sextetValue_alphabet h]
  rfl

theorem uint8_eq {a : UInt8} {n : Nat} (h : a.toNat = n) : UInt8.ofNat n = a := by
  rw [← h]
  simp

theorem decodeQuad_three (a b c : UInt8) :
    decodeQuad (encodeChunk [a, b, c]) 0 = .ok [a, b, c] := by
  have ha := a.toNat_lt
  have hb := b.toNat_lt
  have hc := c.toNat_lt
  rw [chunk_three]
  generalize hp : (a.toNat * 256 + b.toNat) * 256 + c.toNat = packed
  have hlt : packed < 16777216 := by omega
  simp only [decodeQuad, bind_eq_ok, ensure_eq_ok, pure_eq_ok]
  refine ⟨packed, ?_, (), by simp [Nat.mod_one], ?_⟩
  · show packSextets 0 [_, _, _, _] = _
    rw [packSextets_cons (by omega), packSextets_cons (by omega), packSextets_cons (by omega),
      packSextets_cons (by omega)]
    simp only [packSextets]
    congr 1
    omega
  · have e1 : a.toNat = packed * 64 ^ 0 / 256 ^ 2 % 256 := by omega
    have e2 : b.toNat = packed * 64 ^ 0 / 256 ^ 1 % 256 := by omega
    have e3 : c.toNat = packed * 64 ^ 0 / 256 ^ 0 % 256 := by omega
    show [UInt8.ofNat (packed * 64 ^ 0 / 256 ^ 2 % 256),
      UInt8.ofNat (packed * 64 ^ 0 / 256 ^ 1 % 256),
      UInt8.ofNat (packed * 64 ^ 0 / 256 ^ 0 % 256)] = _
    rw [uint8_eq e1, uint8_eq e2, uint8_eq e3]

theorem decodeQuad_two (a b : UInt8) : decodeQuad (encodeChunk [a, b]) 1 = .ok [a, b] := by
  have ha := a.toNat_lt
  have hb := b.toNat_lt
  rw [chunk_two]
  generalize hp : (a.toNat * 256 + b.toNat) * 256 = packed
  simp only [decodeQuad, bind_eq_ok, ensure_eq_ok, pure_eq_ok]
  refine ⟨packed / 64, ?_, (), ?_, ?_⟩
  · show packSextets 0 [_, _, _] = _
    rw [packSextets_cons (by omega), packSextets_cons (by omega), packSextets_cons (by omega)]
    simp only [packSextets]
    congr 1
    omega
  · rw [decide_eq_true_eq]
    omega
  · have e1 : a.toNat = packed / 64 * 64 ^ 1 / 256 ^ 2 % 256 := by omega
    have e2 : b.toNat = packed / 64 * 64 ^ 1 / 256 ^ 1 % 256 := by omega
    show [UInt8.ofNat (packed / 64 * 64 ^ 1 / 256 ^ 2 % 256),
      UInt8.ofNat (packed / 64 * 64 ^ 1 / 256 ^ 1 % 256)] = _
    rw [uint8_eq e1, uint8_eq e2]

theorem decodeQuad_one (a : UInt8) : decodeQuad (encodeChunk [a]) 2 = .ok [a] := by
  have ha := a.toNat_lt
  rw [chunk_one]
  generalize hp : a.toNat * 65536 = packed
  simp only [decodeQuad, bind_eq_ok, ensure_eq_ok, pure_eq_ok]
  refine ⟨packed / 4096, ?_, (), ?_, ?_⟩
  · show packSextets 0 [_, _] = _
    rw [packSextets_cons (by omega), packSextets_cons (by omega)]
    simp only [packSextets]
    congr 1
    omega
  · rw [decide_eq_true_eq]
    omega
  · have e1 : a.toNat = packed / 4096 * 64 ^ 2 / 256 ^ 2 % 256 := by omega
    show [UInt8.ofNat (packed / 4096 * 64 ^ 2 / 256 ^ 2 % 256)] = _
    rw [uint8_eq e1]

/-- An encoding is characters of the alphabet and then its padding. -/
theorem encode_shape (bytes : Bytes) :
    ∃ body, encode bytes = body ++ List.replicate (paddingOf bytes) pad ∧
      (∀ x ∈ body, ∃ n < 64, x = alphabet n) ∧ (encode bytes).length % 4 = 0 := by
  have hsmall : ∀ k, k % 64 < 64 := fun k => Nat.mod_lt _ (by decide)
  induction bytes using encode.induct with
  | case1 => exact ⟨[], rfl, by simp, rfl⟩
  | case2 a =>
    refine ⟨[_, _], by rw [encode, chunk_one]; rfl, ?_, by rw [encode, encodeChunk_length]⟩
    intro x hx
    simp only [List.mem_cons, List.not_mem_nil, or_false] at hx
    rcases hx with rfl | rfl <;> exact ⟨_, hsmall _, rfl⟩
  | case3 a b =>
    refine ⟨[_, _, _], by rw [encode, chunk_two]; rfl, ?_, by rw [encode, encodeChunk_length]⟩
    intro x hx
    simp only [List.mem_cons, List.not_mem_nil, or_false] at hx
    rcases hx with rfl | rfl | rfl <;> exact ⟨_, hsmall _, rfl⟩
  | case4 a b c rest ih =>
    obtain ⟨body, hbody, hall, hlen⟩ := ih
    refine ⟨encodeChunk [a, b, c] ++ body, ?_, ?_, ?_⟩
    · rw [encode, hbody, List.append_assoc]
      rfl
    · intro x hx
      rcases List.mem_append.mp hx with hx | hx
      · rw [chunk_three] at hx
        simp only [List.mem_cons, List.not_mem_nil, or_false] at hx
        rcases hx with rfl | rfl | rfl | rfl <;> exact ⟨_, hsmall _, rfl⟩
      · exact hall x hx
    · rw [encode, List.length_append, encodeChunk_length]
      omega

theorem paddingOf_le (bytes : Bytes) : paddingOf bytes ≤ 2 := by
  induction bytes using paddingOf.induct with
  | case1 => exact Nat.zero_le 2
  | case2 a => exact Nat.le_refl 2
  | case3 a b => exact Nat.le_succ 1
  | case4 a b c rest ih => exact ih

theorem trailing_count {body : Bytes} (h : pad ∉ body) (n : Nat) :
    ((body ++ List.replicate n pad).reverse.takeWhile fun b => b = pad).length = n := by
  rw [List.reverse_append, List.reverse_replicate, List.takeWhile_append_of_pos (by simp),
    List.length_append, List.length_replicate]
  have hnone : body.reverse.takeWhile (fun b => decide (b = pad)) = [] := by
    cases hb : body.reverse with
    | nil => rfl
    | cons x xs =>
      have hx : x ∈ body := List.mem_reverse.mp (hb ▸ List.mem_cons_self)
      have hne : x ≠ pad := fun hp => h (hp ▸ hx)
      simp [hne]
  rw [hnone]
  rfl

theorem decodeQuads_cons {padding : Nat} {a b c d : UInt8} {rest : Bytes} (h : rest ≠ []) :
    decodeQuads padding (a :: b :: c :: d :: rest) = (do
      let octets ← decodeQuad [a, b, c, d] 0
      let more ← decodeQuads padding rest
      return octets ++ more) := by
  cases rest with
  | nil => exact absurd rfl h
  | cons x xs => rfl

/-- The quanta of an encoding decode to its input. -/
theorem decodeQuads_encode (bytes : Bytes) (h : bytes ≠ []) :
    decodeQuads (paddingOf bytes) (encode bytes) = .ok bytes := by
  induction bytes using encode.induct with
  | case1 => exact absurd rfl h
  | case2 a =>
    have hq := decodeQuad_one a
    rw [encode]
    rw [chunk_one] at hq ⊢
    exact hq
  | case3 a b =>
    have hq := decodeQuad_two a b
    rw [encode]
    rw [chunk_two] at hq ⊢
    exact hq
  | case4 a b c rest ih =>
    have hq := decodeQuad_three a b c
    rw [encode]
    by_cases hrest : rest = []
    · subst hrest
      rw [chunk_three] at hq ⊢
      exact hq
    · have hmore := ih hrest
      have hne : encode rest ≠ [] := by
        intro hnil
        rw [hnil] at hmore
        exact absurd hmore (by simp [decodeQuads])
      rw [chunk_three] at hq ⊢
      dsimp only at hq ⊢
      simp only [List.cons_append, List.nil_append]
      rw [decodeQuads_cons hne, hq]
      show (do let more ← decodeQuads (paddingOf rest) (encode rest); _) = _
      rw [hmore]
      rfl

/-- An encoding has only characters of the alphabet, and padding. -/
theorem encode_mem {bytes : Bytes} {x : UInt8} (hx : x ∈ encode bytes) :
    x = pad ∨ ∃ n < 64, x = alphabet n := by
  obtain ⟨body, hshape, hall, -⟩ := encode_shape bytes
  rw [hshape] at hx
  rcases List.mem_append.mp hx with hx | hx
  · exact Or.inr (hall x hx)
  · exact Or.inl (List.eq_of_mem_replicate hx)

theorem trim_encode (bytes : Bytes) :
    trim (asciiText (encode bytes)) = asciiText (encode bytes) := by
  refine trim_of_forall ?_
  intro c hc
  obtain ⟨x, hx, rfl⟩ := List.mem_map.mp hc
  rcases encode_mem hx with rfl | ⟨n, hn, rfl⟩
  · decide
  · exact (alphabet_plain hn).2.1

/-- **Decoding undoes encoding.** -/
theorem decode_encode (bytes : Bytes) : decode (asciiText (encode bytes)) = .ok bytes := by
  obtain ⟨body, hshape, hall, hlen⟩ := encode_shape bytes
  have hascii : ∀ x ∈ encode bytes, x.toNat < 128 := by
    intro x hx
    rcases encode_mem hx with rfl | ⟨n, hn, rfl⟩
    · decide
    · exact (alphabet_plain hn).1
  have hpad : pad ∉ body := by
    intro hp
    obtain ⟨n, hn, hpn⟩ := hall pad hp
    exact (alphabet_plain hn).2.2 hpn.symm
  unfold decode
  rw [trim_encode, utf8Encode_asciiText hascii]
  by_cases hnil : bytes = []
  · subst hnil
    rfl
  · have hquads := decodeQuads_encode bytes hnil
    have hne : (encode bytes).isEmpty = false := by
      cases he : encode bytes with
      | nil =>
        rw [he] at hquads
        exact absurd hquads (by simp [decodeQuads])
      | cons x xs => rfl
    have hcount : ((encode bytes).reverse.takeWhile fun b => b = pad).length = paddingOf bytes := by
      rw [hshape]
      exact trailing_count hpad (paddingOf bytes)
    have htwo : paddingOf bytes ≤ 2 := paddingOf_le bytes
    have hbody : (encode bytes).take ((encode bytes).length - paddingOf bytes) = body := by
      rw [hshape]
      simp
    simp only [hne, Bool.false_eq_true, if_false, decodeTrimmed, bind_eq_ok, ensure_eq_ok, hcount,
      hbody, decide_eq_true_eq]
    exact ⟨(), hlen, (), htwo, (), by simpa using hpad, hquads⟩

example : decode (chars "Zm9vYg==") = .ok [0x66, 0x6F, 0x6F, 0x62] := by decide
example : decode (chars "Zh==") = .error "base64 has nonzero trailing bits" := by decide

end Base64

end RefineId
