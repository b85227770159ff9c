/-
  RefineId.Base64Canonical — one spelling for every octet string.
  ════════════════════════════════════════════════════════════════════════════

  `crates/refineid-doc-sign/src/base64.rs` says that its strict decoder lets ASCII white space
  stand around the text.  `decode` calls `str::trim`, which drops every white space of Unicode.
  What stands between is the encoding of what is decoded, to the last spare bit.

  Main results:
    • `decodeUrlUnpadded_encode` : the URL-safe decoder reads back what its encoder wrote.
    • `decodeQuads_canonical`    : decoded quanta are the encoding of their octets.
    • `decode_iff`               : the accepted texts are the encodings between white space.
    • `decode_exact`             : when the ASCII white space alone tells what is accepted.
-/
import RefineId.Base64

namespace RefineId

namespace Base64

open Lib

/-! ## §1. The URL-safe alphabet -/

/-- `ALPHABET_URL`, by value. -/
def alphabetUrl (n : Nat) : UInt8 :=
  if n < 26 then UInt8.ofNat (65 + n)
  else if n < 52 then UInt8.ofNat (97 + (n - 26))
  else if n < 62 then UInt8.ofNat (48 + (n - 52))
  else if n = 62 then 45
  else 95

/-- One chunk of one to three octets; the characters without input behind them are left out. -/
def encodeChunkUrl (chunk : Bytes) : Bytes :=
  let octet (i : Nat) := (chunk[i]?.getD 0).toNat
  let packed := (octet 0 * 256 + octet 1) * 256 + octet 2
  let character (i : Nat) := packed / 64 ^ (3 - i) % 64
  (List.range (chunk.length + 1)).map fun i => alphabetUrl (character i)

/-- `encode_url_unpadded`. -/
def encodeUrlUnpadded : Bytes → Bytes
  | [] => []
  | [a] => encodeChunkUrl [a]
  | [a, b] => encodeChunkUrl [a, b]
  | a :: b :: c :: rest => encodeChunkUrl [a, b, c] ++ encodeUrlUnpadded rest

/-- The value of one character; the padding has none. -/
def urlValue (byte : UInt8) : Except String (Option Nat) :=
  if 65 ≤ byte && byte ≤ 90 then .ok (some (byte.toNat - 65))
  else if 97 ≤ byte && byte ≤ 122 then .ok (some (byte.toNat - 97 + 26))
  else if 48 ≤ byte && byte ≤ 57 then .ok (some (byte.toNat - 48 + 52))
  else if byte = 45 then .ok (some 62)
  else if byte = 95 then .ok (some 63)
  else if byte = pad then .ok none
  else .error "invalid base64url character"

/-- The loop of `decode_url_unpadded`; `buf` is a `u32`, whose oldest bits fall off. -/
def decodeUrlLoop (buf bits : Nat) : Bytes → Except String Bytes
  | [] => .ok []
  | byte :: rest => do
    match ← urlValue byte with
    | none => decodeUrlLoop buf bits rest
    | some val =>
      let buf := (buf * 64 + val) % 2 ^ 32
      if 8 ≤ bits + 6 then
        let others ← decodeUrlLoop buf (bits + 6 - 8) rest
        return UInt8.ofNat (buf / 2 ^ (bits + 6 - 8) % 256) :: others
      else decodeUrlLoop buf (bits + 6) rest

/-- `decode_url_unpadded`. -/
def decodeUrlUnpadded (input : Text) : Except String Bytes :=
  decodeUrlLoop 0 0 (utf8Encode input)

/-! ## §2. URL-safe decoding undoes encoding -/

theorem urlValue_alphabetUrl {n : Nat} (h : n < 64) :
    urlValue (alphabetUrl n) = .ok (some n) ∧ (alphabetUrl n).toNat < 128 := by
  have hall : ∀ k : Fin 64, urlValue (alphabetUrl k) = .ok (some k.val) ∧
      (alphabetUrl k).toNat < 128 := by decide
  exact hall ⟨n, h⟩

/-- A character with too few bits before it for an octet. -/
theorem decodeUrlLoop_short {n buf bits : Nat} (h : n < 64) (hbits : bits + 6 < 8) (rest : Bytes) :
    decodeUrlLoop buf bits (alphabetUrl n :: rest) =
      decodeUrlLoop ((buf * 64 + n) % 2 ^ 32) (bits + 6) rest := by
  rw [decodeUrlLoop, (urlValue_alphabetUrl h).1]
  exact if_neg (Nat.not_le.mpr hbits)

/-- A character that completes an octet. -/
theorem decodeUrlLoop_octet {n buf bits : Nat} {rest octets : Bytes} (h : n < 64)
    (hbits : 8 ≤ bits + 6)
    (hrest : decodeUrlLoop ((buf * 64 + n) % 2 ^ 32) (bits + 6 - 8) rest = .ok octets) :
    decodeUrlLoop buf bits (alphabetUrl n :: rest) =
      .ok (UInt8.ofNat ((buf * 64 + n) % 2 ^ 32 / 2 ^ (bits + 6 - 8) % 256) :: octets) := by
  rw [decodeUrlLoop, (urlValue_alphabetUrl h).1]
  show (if 8 ≤ bits + 6 then _ else _) = _
  rw [if_pos hbits, hrest]
  rfl

/-- **One quantum**: four characters are three octets, whatever bits are left of earlier ones. -/
theorem decodeUrlLoop_three (a b c : UInt8) (buf : Nat) {rest octets : Bytes}
    (hrest : ∀ buf, decodeUrlLoop buf 0 rest = .ok octets) :
    decodeUrlLoop buf 0 (encodeChunkUrl [a, b, c] ++ rest) = .ok (a :: b :: c :: octets) := by
  have ha := a.toNat_lt
  have hb := b.toNat_lt
  have hc := c.toNat_lt
  have hchunk : encodeChunkUrl [a, b, c] =
      let packed := (a.toNat * 256 + b.toNat) * 256 + c.toNat
      [alphabetUrl (packed / 262144 % 64), alphabetUrl (packed / 4096 % 64),
        alphabetUrl (packed / 64 % 64), alphabetUrl (packed % 64)] := by
    simp [encodeChunkUrl, List.range_succ]
  rw [hchunk]
  generalize hp : (a.toNat * 256 + b.toNat) * 256 + c.toNat = packed
  simp only [List.cons_append, List.nil_append]
  rw [decodeUrlLoop_short (by omega) (by omega), decodeUrlLoop_octet (by omega) (by omega)
    (decodeUrlLoop_octet (by omega) (by omega) (decodeUrlLoop_octet (by omega) (by omega)
      (hrest _)))]
  congr 2
  · exact uint8_eq (by omega)
  · congr 1
    · exact uint8_eq (by omega)
    · congr 1
      exact uint8_eq (by omega)

theorem decodeUrlLoop_nil {buf bits : Nat} : decodeUrlLoop buf bits [] = .ok [] := rfl

/-- A last quantum of two octets. -/
theorem decodeUrlLoop_two (a b : UInt8) (buf : Nat) :
    decodeUrlLoop buf 0 (encodeChunkUrl [a, b]) = .ok [a, b] := by
  have ha := a.toNat_lt
  have hb := b.toNat_lt
  have hchunk : encodeChunkUrl [a, b] =
      let packed := (a.toNat * 256 + b.toNat) * 256
      [alphabetUrl (packed / 262144 % 64), alphabetUrl (packed / 4096 % 64),
        alphabetUrl (packed / 64 % 64)] := by
    simp [encodeChunkUrl, List.range_succ]
  rw [hchunk]
  generalize hp : (a.toNat * 256 + b.toNat) * 256 = packed
  rw [decodeUrlLoop_short (by omega) (by omega), decodeUrlLoop_octet (by omega) (by omega)
    (decodeUrlLoop_octet (by omega) (by omega) decodeUrlLoop_nil)]
  congr 2
  · exact uint8_eq (by omega)
  · congr 1
    exact uint8_eq (by omega)

/-- A last quantum of one octet. -/
theorem decodeUrlLoop_one (a : UInt8) (buf : Nat) :
    decodeUrlLoop buf 0 (encodeChunkUrl [a]) = .ok [a] := by
  have ha := a.toNat_lt
  have hchunk : encodeChunkUrl [a] =
      let packed := a.toNat * 65536
      [alphabetUrl (packed / 262144 % 64), alphabetUrl (packed / 4096 % 64)] := by
    have h : (a.toNat * 256) * 256 = a.toNat * 65536 := by omega
    simp [encodeChunkUrl, List.range_succ, h]
  rw [hchunk]
  generalize hp : a.toNat * 65536 = packed
  rw [decodeUrlLoop_short (by omega) (by omega),
    decodeUrlLoop_octet (by omega) (by omega) decodeUrlLoop_nil]
  congr 2
  exact uint8_eq (by omega)

theorem decodeUrlLoop_encode (bytes : Bytes) :
    ∀ buf, decodeUrlLoop buf 0 (encodeUrlUnpadded bytes) = .ok bytes := by
  induction bytes using encodeUrlUnpadded.induct with
  | case1 => exact fun _ => rfl
  | case2 a => exact decodeUrlLoop_one a
  | case3 a b => exact decodeUrlLoop_two a b
  | case4 a b c rest ih => exact fun buf => decodeUrlLoop_three a b c buf ih

theorem encodeUrlUnpadded_ascii (bytes : Bytes) : ∀ x ∈ encodeUrlUnpadded bytes, x.toNat < 128 := by
  have hchunk : ∀ chunk, ∀ x ∈ encodeChunkUrl chunk, x.toNat < 128 := by
    intro chunk x hx
    obtain ⟨i, -, rfl⟩ := List.mem_map.mp hx
    exact (urlValue_alphabetUrl (Nat.mod_lt _ (by decide))).2
  induction bytes using encodeUrlUnpadded.induct with
  | case1 => exact fun x hx => absurd hx List.not_mem_nil
  | case2 a => exact hchunk [a]
  | case3 a b => exact hchunk [a, b]
  | case4 a b c rest ih =>
    intro x hx
    obtain hx | hx := List.mem_append.mp hx
    · exact hchunk [a, b, c] x hx
    · exact ih x hx

/-- **URL-safe decoding undoes encoding.** -/
theorem decodeUrlUnpadded_encode (bytes : Bytes) :
    decodeUrlUnpadded (asciiText (encodeUrlUnpadded bytes)) = .ok bytes := by
  rw [decodeUrlUnpadded, utf8Encode_asciiText (encodeUrlUnpadded_ascii bytes)]
  exact decodeUrlLoop_encode bytes 0

/-! ## §3. The strict decoder -/

theorem sextetValue_eq_ok {byte : UInt8} {n : Nat} (h : sextetValue byte = .ok n) :
    n < 64 ∧ byte = alphabet n := by
  have hall : ∀ k : Fin 256, (sextetValue (UInt8.ofFin k)).toOption.all
      (fun n => n < 64 ∧ UInt8.ofFin k = alphabet n) = true := by decide +kernel
  have hbyte := hall byte.toFin
  rw [UInt8.ofFin_toFin, h] at hbyte
  exact of_decide_eq_true hbyte

/-- An accepted character is one of the alphabet. -/
theorem packSextets_eq_ok {packed total : Nat} {byte : UInt8} {rest : Bytes}
    (h : packSextets packed (byte :: rest) = .ok total) :
    ∃ n < 64, byte = alphabet n ∧ packSextets (packed * 64 + n) rest = .ok total := by
  rw [packSextets] at h
  obtain ⟨n, hn, hrest⟩ := bind_eq_ok.mp h
  obtain ⟨hlt, hbyte⟩ := sextetValue_eq_ok hn
  exact ⟨n, hlt, hbyte, hrest⟩

theorem decodeQuad_eq_ok {quad out : Bytes} {padding : Nat}
    (h : decodeQuad quad padding = .ok out) :
    ∃ packed, packSextets 0 (quad.take (4 - padding)) = .ok packed ∧ packed % 4 ^ padding = 0 ∧
      out = (List.range (3 - padding)).map fun i =>
        UInt8.ofNat (packed * 64 ^ padding / 256 ^ (2 - i) % 256) := by
  simp only [decodeQuad, bind_eq_ok, ensure_eq_ok, pure_eq_ok, decide_eq_true_eq] at h
  obtain ⟨packed, hpacked, -, hspare, rfl⟩ := h
  exact ⟨packed, hpacked, hspare, rfl⟩

/-- **A full quantum** is the encoding of its three octets. -/
theorem decodeQuad_zero {a b c d : UInt8} {out : Bytes} (h : decodeQuad [a, b, c, d] 0 = .ok out) :
    ∃ x y z, out = [x, y, z] ∧ [a, b, c, d] = encodeChunk [x, y, z] := by
  obtain ⟨packed, hpacked, -, rfl⟩ := decodeQuad_eq_ok h
  change packSextets 0 [a, b, c, d] = _ at hpacked
  obtain ⟨n, hn, rfl, hfirst⟩ := packSextets_eq_ok hpacked
  obtain ⟨m, hm, rfl, hsecond⟩ := packSextets_eq_ok hfirst
  obtain ⟨k, hk, rfl, hthird⟩ := packSextets_eq_ok hsecond
  obtain ⟨l, hl, rfl, hfourth⟩ := packSextets_eq_ok hthird
  have htotal : (((0 * 64 + n) * 64 + m) * 64 + k) * 64 + l = packed := Except.ok.inj hfourth
  refine ⟨_, _, _, rfl, ?_⟩
  rw [chunk_three]
  simp only [UInt8.toNat_ofNat', Nat.reducePow, Nat.reduceSub, List.cons.injEq, and_true]
  refine ⟨?_, ?_, ?_, ?_⟩ <;>
  · congr 1
    omega

/-- **A quantum with one padding character** is the encoding of its two octets. -/
theorem decodeQuad_single {a b c : UInt8} {out : Bytes}
    (h : decodeQuad [a, b, c, pad] 1 = .ok out) :
    ∃ x y, out = [x, y] ∧ [a, b, c, pad] = encodeChunk [x, y] := by
  obtain ⟨packed, hpacked, hspare, rfl⟩ := decodeQuad_eq_ok h
  change packSextets 0 [a, b, c] = _ at hpacked
  obtain ⟨n, hn, rfl, hfirst⟩ := packSextets_eq_ok hpacked
  obtain ⟨m, hm, rfl, hsecond⟩ := packSextets_eq_ok hfirst
  obtain ⟨k, hk, rfl, hthird⟩ := packSextets_eq_ok hsecond
  have htotal : ((0 * 64 + n) * 64 + m) * 64 + k = packed := Except.ok.inj hthird
  refine ⟨_, _, rfl, ?_⟩
  rw [chunk_two]
  simp only [UInt8.toNat_ofNat', Nat.reducePow, Nat.reduceSub, List.cons.injEq, and_true]
  rw [Nat.pow_one] at hspare
  refine ⟨?_, ?_, ?_⟩ <;>
  · congr 1
    omega

/-- **A quantum with two padding characters** is the encoding of its octet. -/
theorem decodeQuad_double {a b : UInt8} {out : Bytes}
    (h : decodeQuad [a, b, pad, pad] 2 = .ok out) :
    ∃ x, out = [x] ∧ [a, b, pad, pad] = encodeChunk [x] := by
  obtain ⟨packed, hpacked, hspare, rfl⟩ := decodeQuad_eq_ok h
  change packSextets 0 [a, b] = _ at hpacked
  obtain ⟨n, hn, rfl, hfirst⟩ := packSextets_eq_ok hpacked
  obtain ⟨m, hm, rfl, hsecond⟩ := packSextets_eq_ok hfirst
  have htotal : (0 * 64 + n) * 64 + m = packed := Except.ok.inj hsecond
  refine ⟨_, rfl, ?_⟩
  rw [chunk_one]
  simp only [UInt8.toNat_ofNat', Nat.reducePow, Nat.reduceSub, List.cons.injEq, and_true]
  norm_num at hspare
  refine ⟨?_, ?_⟩ <;>
  · congr 1
    omega

theorem decodeQuads_length {padding : Nat} {bytes out : Bytes}
    (h : decodeQuads padding bytes = .ok out) : 4 ≤ bytes.length := by
  match bytes, h with
  | [], h => cases h
  | [_], h => cases h
  | [_, _], h => cases h
  | [_, _, _], h => cases h
  | _ :: _ :: _ :: _ :: rest, _ =>
    simp only [List.length_cons]
    omega

/-- **Decoded quanta are the encoding** of their octets, where the padding stands at the end. -/
theorem decodeQuads_canonical {padding : Nat} {bytes out : Bytes}
    (h : decodeQuads padding bytes = .ok out) (htwo : padding ≤ 2)
    (hpadding : List.replicate padding pad <:+ bytes) : bytes = encode out := by
  induction bytes using decodeQuads.induct generalizing out with
  | case1 => cases h
  | case2 a b c d =>
    rw [decodeQuads] at h
    obtain rfl | rfl | rfl : padding = 0 ∨ padding = 1 ∨ padding = 2 := by omega
    · obtain ⟨x, y, z, rfl, hquad⟩ := decodeQuad_zero h
      rw [hquad, encode, encode, List.append_nil]
    · obtain ⟨body, hbody⟩ := hpadding
      have hend : body = [a, b, c] ∧ [pad] = [d] :=
        List.append_inj' (hbody.trans (List.append_assoc [a, b, c] [] [d]).symm) rfl
      obtain rfl : pad = d := by simpa using hend.2
      obtain ⟨x, y, rfl, hquad⟩ := decodeQuad_single h
      rw [hquad, encode]
    · obtain ⟨body, hbody⟩ := hpadding
      have hend : body = [a, b] ∧ [pad, pad] = [c, d] :=
        List.append_inj' (hbody.trans (List.append_assoc [a, b] [] [c, d]).symm) rfl
      obtain ⟨rfl, rfl⟩ : pad = c ∧ pad = d := by simpa using hend.2
      obtain ⟨x, rfl, hquad⟩ := decodeQuad_double h
      rw [hquad, encode]
  | case3 a b c d rest hrest ih =>
    rw [decodeQuads_cons (by rintro rfl; exact hrest rfl)] at h
    obtain ⟨octets, hoctets, h⟩ := bind_eq_ok.mp h
    obtain ⟨more, hmore, h⟩ := bind_eq_ok.mp h
    obtain rfl := pure_eq_ok.mp h
    have hfour := decodeQuads_length hmore
    have hsuffix : List.replicate padding pad <:+ rest :=
      List.suffix_of_suffix_length_le hpadding (List.suffix_append [a, b, c, d] rest)
        (by rw [List.length_replicate]; omega)
    obtain ⟨x, y, z, rfl, hquad⟩ := decodeQuad_zero hoctets
    show [a, b, c, d] ++ rest = encode (x :: y :: z :: more)
    rw [encode, ← hquad, ← ih hmore hsuffix]
  | case4 bytes hnil hquad hmore =>
    rw [decodeQuads] at h
    · cases h
    all_goals assumption

/-- What the padding is counted by stands at the end. -/
theorem trailing_suffix (bytes : Bytes) :
    List.replicate (bytes.reverse.takeWhile fun b => b = pad).length pad <:+ bytes := by
  have hall : bytes.reverse.takeWhile (fun b => b = pad) =
      List.replicate (bytes.reverse.takeWhile fun b => b = pad).length pad := by
    refine List.eq_replicate_of_mem fun b hb => ?_
    simpa using List.mem_takeWhile_imp hb
  have hprefix := List.takeWhile_prefix (fun b => decide (b = pad)) (l := bytes.reverse)
  rw [hall, ← List.reverse_suffix, List.reverse_reverse, List.reverse_replicate] at hprefix
  exact hprefix

theorem utf8Encode_encode (bytes : Bytes) : utf8Encode (asciiText (encode bytes)) = encode bytes := by
  refine utf8Encode_asciiText fun x hx => ?_
  obtain rfl | ⟨n, hn, rfl⟩ := encode_mem hx
  · decide
  · exact (alphabet_plain hn).1

/-- **The accepted texts** are the encodings, in the white space that `trim` drops. -/
theorem decode_iff {text : Text} {octets : Bytes} :
    decode text = .ok octets ↔ trim text = asciiText (encode octets) := by
  constructor
  · intro h
    have hencode : utf8Encode (trim text) = encode octets := by
      unfold decode at h
      dsimp only at h
      split at h
      next hempty =>
        obtain rfl := Except.ok.inj h
        exact List.isEmpty_iff.mp hempty
      next =>
        simp only [decodeTrimmed, bind_eq_ok, ensure_eq_ok, decide_eq_true_eq] at h
        obtain ⟨-, -, -, htwo, -, -, hquads⟩ := h
        exact decodeQuads_canonical hquads htwo (trailing_suffix _)
    have hsame := fromUtf8_utf8Encode (trim text)
    rw [hencode, ← utf8Encode_encode, fromUtf8_utf8Encode] at hsame
    exact (Option.some.inj hsame).symm
  · intro h
    have hread := decode_encode octets
    unfold decode at hread ⊢
    rw [trim_encode] at hread
    rw [h]
    exact hread

/-! ## §4. White space around a text -/

/-- `char::is_ascii_whitespace`. -/
def isAsciiBlank (c : Char) : Bool :=
  c.toNat = 32 || c.toNat = 9 || c.toNat = 10 || c.toNat = 12 || c.toNat = 13

/-- The text less the ASCII white space around it. -/
def trimAscii (text : Text) : Text := trimWhile isAsciiBlank text

/-- The text is the encoding of the octets in white space, some of it not ASCII's. -/
def WidelyFramed (octets : Bytes) (text : Text) : Prop :=
  ∃ front back, text = front ++ asciiText (encode octets) ++ back ∧
    (∀ c ∈ front ++ back, isWhitespace c = true) ∧ ∃ c ∈ front ++ back, isAsciiBlank c = false

theorem isWhitespace_of_isAsciiBlank {c : Char} (h : isAsciiBlank c = true) :
    isWhitespace c = true := by
  simp only [isAsciiBlank, Bool.or_eq_true, decide_eq_true_eq] at h
  simp only [isWhitespace, Bool.or_eq_true, Bool.and_eq_true, decide_eq_true_eq]
  omega

/-- An encoding has no white space. -/
theorem encode_unblank {octets : Bytes} {c : Char} (hc : c ∈ asciiText (encode octets)) :
    isWhitespace c = false := by
  obtain ⟨x, hx, rfl⟩ := List.mem_map.mp hc
  obtain rfl | ⟨n, hn, rfl⟩ := encode_mem hx
  · decide
  · exact (alphabet_plain hn).2.1

theorem encode_not_asciiBlank {octets : Bytes} {c : Char} (hc : c ∈ asciiText (encode octets)) :
    isAsciiBlank c = false := by
  by_contra hblank
  have hspace := isWhitespace_of_isAsciiBlank (Bool.not_eq_false _ ▸ hblank)
  rw [encode_unblank hc] at hspace
  cases hspace

/-- **When the ASCII white space tells what is accepted**: both coders read back what their
    encoders wrote, and a text decodes to the octets exactly if less its ASCII white space it is
    their encoding, unless it is that encoding in white space that is not all ASCII's. -/
theorem decode_exact (octets : Bytes) (text : Text) :
    (decode (asciiText (encode octets)) = .ok octets ∧
      decodeUrlUnpadded (asciiText (encodeUrlUnpadded octets)) = .ok octets ∧
      (decode text = .ok octets ↔ trimAscii text = asciiText (encode octets))) ↔
    ¬ WidelyFramed octets text := by
  have htrim : decode text = .ok octets ↔ ∃ front back,
      text = front ++ asciiText (encode octets) ++ back ∧
        ∀ c ∈ front ++ back, isWhitespace c = true := by
    rw [decode_iff, trim_eq_trimWhile, trimWhile_eq_iff fun c hc => encode_unblank hc]
  have hascii : trimAscii text = asciiText (encode octets) ↔ ∃ front back,
      text = front ++ asciiText (encode octets) ++ back ∧
        ∀ c ∈ front ++ back, isAsciiBlank c = true := by
    rw [trimAscii, trimWhile_eq_iff fun c hc => encode_not_asciiBlank hc]
  constructor
  · rintro ⟨-, -, hsame⟩ ⟨front, back, htext, hspace, c, hc, hwide⟩
    obtain ⟨front', back', htext', hblank⟩ :=
      hascii.mp (hsame.mp (htrim.mpr ⟨front, back, htext, hspace⟩))
    -- the wide character stands in one of the three parts the ASCII white space leaves
    have hmem : c ∈ front' ++ asciiText (encode octets) ++ back' := by
      rw [← htext', htext]
      simp only [List.mem_append] at hc ⊢
      tauto
    simp only [List.mem_append] at hmem
    obtain (hfront | hcore) | hback := hmem
    · rw [hblank c (List.mem_append_left _ hfront)] at hwide
      cases hwide
    · have hc' := hspace c hc
      rw [encode_unblank hcore] at hc'
      cases hc'
    · rw [hblank c (List.mem_append_right _ hback)] at hwide
      cases hwide
  · intro hnarrow
    refine ⟨decode_encode octets, decodeUrlUnpadded_encode octets, ?_⟩
    rw [htrim, hascii]
    constructor
    · rintro ⟨front, back, htext, hspace⟩
      refine ⟨front, back, htext, fun c hc => ?_⟩
      by_contra hwide
      exact hnarrow ⟨front, back, htext, hspace, c, hc, Bool.not_eq_true _ ▸ hwide⟩
    · rintro ⟨front, back, htext, hblank⟩
      exact ⟨front, back, htext, fun c hc => isWhitespace_of_isAsciiBlank (hblank c hc)⟩

/-- **A no-break space** is let stand before the text. -/
theorem wideBlank_accepted :
    decode (chars "\u00A0Zg==") = .ok [0x66] ∧
      trimAscii (chars "\u00A0Zg==") ≠ asciiText (encode [0x66]) := by
  decide

end Base64

end RefineId
