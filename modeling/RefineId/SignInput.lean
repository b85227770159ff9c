/-
  RefineId.SignInput — what `C_Sign` hands to the card.
  ════════════════════════════════════════════════════════════════════════════

  `crates/refineid-pkcs11/src/sign.rs`: for `CKM_RSA_PKCS` the caller's octets are a
  `DigestInfo`, read by a parser of its own that knows short lengths only; for `CKM_ECDSA`
  they are a digest of any length, fitted to the 48 octets that the P-384 key signs.  Both
  ways refuse the digests that a cleared buffer would give.

  Main results:
    • `isDegenerate_iff`             : the refused digests, as the numbers 0, 1 and -1.
    • `readTlv_iff`                  : the parser reads the DER of short elements.
    • `parseSha256DigestInfo_exact`  : it accepts the SHA-256 `DigestInfo`s and no more.
    • `fitted_iff`                   : when the fitted digest is the input's number and none of
                                       the refused ones.
-/
import RefineId.Lib.Outcome
import RefineId.Oid

namespace RefineId

namespace SignInput

open Ber Lib

/-! ## §1. Degenerate digests -/

/-- The return values of the refusals. -/
inductive CkRv where
  | dataInvalid
  | dataLenRange
  deriving Repr, DecidableEq

/-- `all_zero`, over any part of a digest. -/
def allZero (digest : Bytes) : Bool := digest.all fun b => b = 0

/-- `all_ones`. -/
def allOnes (digest : Bytes) : Bool := digest.all fun b => b = 0xFF

/-- `zeros_except_last`. -/
def zerosExceptLast (digest : Bytes) : Bool :=
  match digest.getLast? with
  | none => false
  | some last => last = 1 && allZero digest.dropLast

/-- `zeros_except_first`. -/
def zerosExceptFirst : Bytes → Bool
  | [] => false
  | first :: tail => first = 1 && allZero tail

/-- The four sentinels of `reject_degenerate_digest`. -/
def isDegenerate (digest : Bytes) : Bool :=
  allZero digest || allOnes digest || zerosExceptLast digest || zerosExceptFirst digest

/-- `reject_degenerate_digest`. -/
def rejectDegenerateDigest (digest : Bytes) : Except CkRv Unit :=
  if isDegenerate digest then .error .dataInvalid else .ok ()

/-- **Degenerate**: the big-endian number is 0, 1 or -1, or the little-endian number is 1. -/
def Degenerate (digest : Bytes) : Prop :=
  beValue digest = 0 ∨ beValue digest = 1 ∨ beValue digest + 1 = 256 ^ digest.length ∨
    beValue digest.reverse = 1

theorem allZero_iff (bs : Bytes) : allZero bs = true ↔ beValue bs = 0 := by
  induction bs with
  | nil => simp [allZero, beValue]
  | cons b rest ih =>
    have hpow : 0 < 256 ^ rest.length := by positivity
    have hb : b = 0 ↔ b.toNat = 0 := UInt8.toNat_inj.symm
    rw [beValue_cons, Nat.add_eq_zero_iff, Nat.mul_eq_zero, ← ih, ← hb]
    simp only [allZero, List.all_cons, Bool.and_eq_true, decide_eq_true_eq]
    constructor
    · intro h
      exact ⟨.inl h.1, h.2⟩
    · intro h
      exact ⟨h.1.resolve_right hpow.ne', h.2⟩

theorem allOnes_iff (bs : Bytes) : allOnes bs = true ↔ beValue bs + 1 = 256 ^ bs.length := by
  induction bs with
  | nil => simp [allOnes, beValue]
  | cons b rest ih =>
    have hlt := beValue_lt rest
    have hbyte : b.toNat < 256 := b.toNat_lt
    have hb : b = 0xFF ↔ b.toNat = 255 := UInt8.toNat_inj.symm
    rw [beValue_cons, List.length_cons, pow_succ]
    simp only [allOnes, List.all_cons, Bool.and_eq_true, decide_eq_true_eq] at ih ⊢
    rw [ih, hb]
    generalize 256 ^ rest.length = p at hlt ⊢
    constructor
    · intro h
      rw [h.1]
      omega
    · intro h
      -- the first octet alone decides, for the rest is below `p`
      have hfirst : b.toNat = 255 := by
        by_contra hne
        have hsmall : b.toNat * p ≤ 254 * p := Nat.mul_le_mul_right p (by omega)
        omega
      rw [hfirst] at h
      exact ⟨hfirst, by omega⟩

/-- The number 1: zeros, and a last octet of 1. -/
theorem beValue_append_eq_one (bs : Bytes) (b : UInt8) :
    beValue (bs ++ [b]) = 1 ↔ b = 1 ∧ allZero bs = true := by
  have hb : b = 1 ↔ b.toNat = 1 := UInt8.toNat_inj.symm
  have hsingle : beValue [b] = b.toNat := by simp [beValue]
  have hbyte : b.toNat < 256 := b.toNat_lt
  rw [beValue_append, hsingle, allZero_iff, hb, List.length_singleton]
  omega

theorem zerosExceptLast_iff (bs : Bytes) : zerosExceptLast bs = true ↔ beValue bs = 1 := by
  rcases List.eq_nil_or_concat bs with rfl | ⟨front, last, rfl⟩
  · simp [zerosExceptLast, beValue]
  · rw [List.concat_eq_append, beValue_append_eq_one]
    simp [zerosExceptLast]

theorem zerosExceptFirst_iff (bs : Bytes) : zerosExceptFirst bs = true ↔ beValue bs.reverse = 1 := by
  cases bs with
  | nil => simp [zerosExceptFirst, beValue]
  | cons first tail =>
    rw [List.reverse_cons, beValue_append_eq_one]
    simp [zerosExceptFirst, allZero]

/-- **The refused digests** are those numbers. -/
theorem isDegenerate_iff (digest : Bytes) : isDegenerate digest = true ↔ Degenerate digest := by
  rw [isDegenerate, Degenerate, ← allZero_iff, ← zerosExceptLast_iff, ← allOnes_iff,
    ← zerosExceptFirst_iff]
  simp only [Bool.or_eq_true]
  tauto

theorem rejectDegenerateDigest_eq_ok {digest : Bytes} {u : Unit} :
    rejectDegenerateDigest digest = .ok u ↔ ¬ Degenerate digest := by
  rw [← isDegenerate_iff, rejectDegenerateDigest]
  split_ifs with h <;> simp [h]

/-! ## §2. DigestInfo -/

/-- `read_tlv`: tag, value and what follows; long lengths are refused. -/
def readTlv : Bytes → Option (UInt8 × Bytes × Bytes)
  | tag :: length :: rest =>
    if 0x80 ≤ length then none
    else if length.toNat ≤ rest.length then
      some (tag, rest.take length.toNat, rest.drop length.toNat)
    else none
  | _ => none

/-- `SHA256_OID_VALUE`. -/
def sha256OidValue : Bytes := [0x60, 0x86, 0x48, 0x01, 0x65, 0x03, 0x04, 0x02, 0x01]

/-- The algorithm parameters: absent, or an explicit NULL. -/
def parametersAccepted (afterOid : Bytes) : Bool :=
  match readTlv afterOid with
  | none => afterOid.isEmpty
  | some (nullTag, nullBody, afterNull) => nullTag = 0x05 && nullBody.isEmpty && afterNull.isEmpty

/-- `parse_sha256_digest_info`. -/
def parseSha256DigestInfo (input : Bytes) : Except CkRv Bytes := do
  let (outerTag, outerBody, outerRest) ← okOr .dataInvalid (readTlv input)
  ensure (outerTag = 0x30 && outerRest.isEmpty) .dataInvalid
  let (algTag, algBody, afterAlg) ← okOr .dataInvalid (readTlv outerBody)
  ensure (algTag = 0x30) .dataInvalid
  let (oidTag, oidBody, afterOid) ← okOr .dataInvalid (readTlv algBody)
  ensure (oidTag = 0x06 && oidBody = sha256OidValue) .dataInvalid
  ensure (parametersAccepted afterOid) .dataInvalid
  let (digestTag, digestBody, afterDigest) ← okOr .dataInvalid (readTlv afterAlg)
  ensure (digestTag = 0x04 && afterDigest.isEmpty) .dataInvalid
  rejectDegenerateDigest digestBody
  ensure (digestBody.length = 32) .dataInvalid
  return digestBody

/-- **The DER of a SHA-256 `DigestInfo`**, written with shortest lengths. -/
def encodeDigestInfo (parameters digest : Bytes) : Option Bytes := do
  let oid ← tlv 0x06 Oid.sha256
  let algorithm ← tlv 0x30 (oid ++ parameters)
  let octets ← tlv 0x04 digest
  tlv 0x30 (algorithm ++ octets)

theorem sha256OidValue_eq : sha256OidValue = Oid.sha256 := by decide

/-- **What is read is a short element**, as the encoder writes it. -/
theorem readTlv_iff {data value rest : Bytes} {tag : UInt8} :
    readTlv data = some (tag, value, rest) ↔
      value.length < 0x80 ∧ ∃ element, tlv tag value = some element ∧ data = element ++ rest := by
  have hwrite {v : Bytes} (h : v.length < 0x80) :
      tlv tag v = some (tag :: UInt8.ofNat v.length :: v) := by
    simp [tlv, pushLength, h]
  constructor
  · intro h
    rcases data with _ | ⟨t, _ | ⟨length, body⟩⟩
    · simp [readTlv] at h
    · simp [readTlv] at h
    · simp only [readTlv] at h
      split_ifs at h with hlong hroom
      obtain ⟨rfl, rfl, rfl⟩ : t = tag ∧ body.take length.toNat = value ∧
        body.drop length.toNat = rest := by simpa using h
      have hlen : (body.take length.toNat).length = length.toNat := List.length_take_of_le hroom
      have hshort : length.toNat < 0x80 := by
        rw [UInt8.le_iff_toNat_le] at hlong
        exact Nat.lt_of_not_le hlong
      rw [hlen]
      refine ⟨hshort, _, hwrite (by rwa [hlen]), ?_⟩
      rw [hlen, UInt8.ofNat_toNat, List.cons_append, List.cons_append, List.take_append_drop]
  · intro h
    obtain ⟨hshort, element, helement, rfl⟩ := h
    rw [hwrite hshort] at helement
    obtain rfl := Option.some.inj helement
    have hnat : (UInt8.ofNat value.length).toNat = value.length := by
      rw [uint8_ofNat_toNat, Nat.mod_eq_of_lt (by omega)]
    have hlong : ¬ 0x80 ≤ UInt8.ofNat value.length := by
      rw [UInt8.le_iff_toNat_le, hnat]
      exact Nat.not_le.mpr hshort
    simp [readTlv, hlong, hnat]

/-- The accepted parameters: none, or the DER of NULL. -/
theorem parametersAccepted_iff (parameters : Bytes) :
    parametersAccepted parameters = true ↔ parameters = [] ∨ tlv 0x05 [] = some parameters := by
  unfold parametersAccepted
  cases h : readTlv parameters with
  | none =>
    rw [List.isEmpty_iff]
    constructor
    · exact .inl
    · intro hor
      rcases hor with hnil | hnull
      · exact hnil
      · have hread := readTlv_iff.mpr ⟨by decide, parameters, hnull, (List.append_nil _).symm⟩
        rw [h] at hread
        exact absurd hread (by simp)
  | some found =>
    obtain ⟨tag, body, rest⟩ := found
    obtain ⟨-, element, helement, rfl⟩ := readTlv_iff.mp h
    simp only [Bool.and_eq_true, decide_eq_true_eq, List.isEmpty_iff]
    constructor
    · intro hand
      obtain ⟨⟨rfl, rfl⟩, rfl⟩ := hand
      rw [List.append_nil]
      exact .inr helement
    · intro hor
      rcases hor with hnil | hnull
      · rw [hnil] at h
        simp [readTlv] at h
      · have hread := readTlv_iff.mpr ⟨by decide, _, hnull, (List.append_nil _).symm⟩
        rw [h] at hread
        simpa [and_assoc] using hread

theorem encodeDigestInfo_eq_some {parameters digest input : Bytes} :
    encodeDigestInfo parameters digest = some input ↔ ∃ oid algorithm octets,
      tlv 0x06 Oid.sha256 = some oid ∧ tlv 0x30 (oid ++ parameters) = some algorithm ∧
      tlv 0x04 digest = some octets ∧ tlv 0x30 (algorithm ++ octets) = some input := by
  simp only [encodeDigestInfo, Option.bind_eq_bind, Option.bind_eq_some_iff]
  constructor
  · intro h
    obtain ⟨oid, h1, algorithm, h2, octets, h3, h4⟩ := h
    exact ⟨oid, algorithm, octets, h1, h2, h3, h4⟩
  · intro h
    obtain ⟨oid, algorithm, octets, h1, h2, h3, h4⟩ := h
    exact ⟨oid, h1, algorithm, h2, octets, h3, h4⟩

/-- What the parser has read when it returns. -/
theorem parseSha256DigestInfo_eq_ok {input digest : Bytes} :
    parseSha256DigestInfo input = .ok digest ↔ ∃ outerBody algBody afterAlg afterOid,
      readTlv input = some (0x30, outerBody, []) ∧
      readTlv outerBody = some (0x30, algBody, afterAlg) ∧
      readTlv algBody = some (0x06, sha256OidValue, afterOid) ∧
      parametersAccepted afterOid = true ∧
      readTlv afterAlg = some (0x04, digest, []) ∧
      ¬ Degenerate digest ∧ digest.length = 32 := by
  simp only [parseSha256DigestInfo, bind_eq_ok, okOr_eq_ok, ensure_eq_ok, pure_eq_ok,
    rejectDegenerateDigest_eq_ok, Bool.and_eq_true, decide_eq_true_eq, List.isEmpty_iff]
  constructor
  · intro h
    obtain ⟨⟨_, outerBody, _⟩, houter, -, ⟨rfl, rfl⟩, ⟨_, algBody, afterAlg⟩, halg, -, rfl,
      ⟨_, _, afterOid⟩, hoid, -, ⟨rfl, rfl⟩, -, hparameters, ⟨_, _, _⟩, hdigest, -, ⟨rfl, rfl⟩, -,
      hdegenerate, -, hlength, rfl⟩ := h
    exact ⟨outerBody, algBody, afterAlg, afterOid, houter, halg, hoid, hparameters, hdigest,
      hdegenerate, hlength⟩
  · intro h
    obtain ⟨outerBody, algBody, afterAlg, afterOid, houter, halg, hoid, hparameters, hdigest,
      hdegenerate, hlength⟩ := h
    exact ⟨_, houter, (), ⟨rfl, rfl⟩, _, halg, (), rfl, _, hoid, (), ⟨rfl, rfl⟩, (), hparameters, _,
      hdigest, (), ⟨rfl, rfl⟩, (), hdegenerate, (), hlength, rfl⟩

theorem tlv_length {tag : UInt8} {value out : Bytes} (hshort : value.length < 0x80)
    (h : tlv tag value = some out) : out.length = value.length + 2 := by
  simp only [tlv, pushLength, hshort, if_true, Option.map_some, Option.some.injEq] at h
  rw [← h]
  simp

/-- **The parser is exact.**  It returns a digest for the DER of its SHA-256 `DigestInfo`, with
    NULL or no parameters, where the digest has 32 octets and is not degenerate, and for no
    other octets. -/
theorem parseSha256DigestInfo_exact (input digest : Bytes) :
    parseSha256DigestInfo input = .ok digest ↔
      digest.length = 32 ∧ ¬ Degenerate digest ∧
        ∃ parameters, (parameters = [] ∨ tlv 0x05 [] = some parameters) ∧
          encodeDigestInfo parameters digest = some input := by
  rw [parseSha256DigestInfo_eq_ok]
  constructor
  · intro h
    obtain ⟨outerBody, algBody, afterAlg, parameters, houter, halg, hoid, hparameters, hdigest,
      hdegenerate, hlength⟩ := h
    obtain ⟨-, whole, hwhole, rfl⟩ := readTlv_iff.mp houter
    obtain ⟨-, algorithm, halgorithm, rfl⟩ := readTlv_iff.mp halg
    obtain ⟨-, oid, hoidDer, rfl⟩ := readTlv_iff.mp hoid
    obtain ⟨-, octets, hoctets, rfl⟩ := readTlv_iff.mp hdigest
    rw [sha256OidValue_eq] at hoidDer
    rw [List.append_nil] at hwhole ⊢
    exact ⟨hlength, hdegenerate, parameters, (parametersAccepted_iff parameters).mp hparameters,
      encodeDigestInfo_eq_some.mpr ⟨oid, algorithm, octets, hoidDer, halgorithm, hoctets, hwhole⟩⟩
  · intro h
    obtain ⟨hlength, hdegenerate, parameters, hparameters, hencode⟩ := h
    obtain ⟨oid, algorithm, octets, hoid, halgorithm, hoctets, hwhole⟩ :=
      encodeDigestInfo_eq_some.mp hencode
    -- every length on the way is short
    have hsmall : parameters.length ≤ 2 := by
      rcases hparameters with rfl | hnull
      · simp
      · rw [tlv_length (by decide) hnull]
        simp
    have hoidLength : oid.length = 11 := by
      rw [tlv_length (by decide) hoid]
      decide
    have halgLength : algorithm.length ≤ 15 := by
      rw [tlv_length (by rw [List.length_append]; omega) halgorithm, List.length_append]
      omega
    have hoctetsLength : octets.length = 34 := by
      rw [tlv_length (by omega) hoctets, hlength]
    refine ⟨algorithm ++ octets, oid ++ parameters, octets, parameters, readTlv_iff.mpr ?_,
      readTlv_iff.mpr ?_, readTlv_iff.mpr ?_, (parametersAccepted_iff parameters).mpr hparameters,
      readTlv_iff.mpr ?_, hdegenerate, hlength⟩
    · exact ⟨by rw [List.length_append]; omega, input, hwhole, (List.append_nil _).symm⟩
    · exact ⟨by rw [List.length_append]; omega, algorithm, halgorithm, rfl⟩
    · rw [sha256OidValue_eq]
      exact ⟨by decide, oid, hoid, rfl⟩
    · exact ⟨by omega, octets, hoctets, (List.append_nil _).symm⟩

/-- The accepted digest is the octets 0 to 31. -/
example : parseSha256DigestInfo ([0x30, 0x31, 0x30, 0x0D, 0x06, 0x09, 0x60, 0x86, 0x48, 0x01, 0x65,
    0x03, 0x04, 0x02, 0x01, 0x05, 0x00, 0x04, 0x20] ++ (List.range 32).map UInt8.ofNat) =
    .ok ((List.range 32).map UInt8.ofNat) := by decide

/-! ## §3. Fitting an ECDSA digest -/

/-- `SHA384_DIGEST_BYTES`: the octets that the card's key signs. -/
def sha384DigestBytes : Nat := 48

/-- `CkEcdsaDigest::fit_p384`: at the right end of 48 zeros, or cut to 48 octets. -/
def fitP384 (input : Bytes) : Except CkRv Bytes := do
  ensure (!input.isEmpty) .dataLenRange
  rejectDegenerateDigest input
  let source := input.take (min input.length sha384DigestBytes)
  let zeros := List.replicate sha384DigestBytes 0
  return zeros.take (sha384DigestBytes - source.length) ++ source

/-- **The number that is signed** for a digest: the digest's own while it fits the curve's 384
    bits, and its leftmost 384 bits beyond that. -/
def signedNumber (input : Bytes) : Nat :=
  if input.length ≤ sha384DigestBytes then beValue input
  else beValue input / 256 ^ (input.length - sha384DigestBytes)

/-- **The fitted digest stands for the input**, and is none of those that are refused. -/
def Fitted (input : Bytes) : Prop :=
  ∀ digest, fitP384 input = .ok digest →
    digest.length = sha384DigestBytes ∧ beValue digest = signedNumber input ∧
      rejectDegenerateDigest digest = .ok ()

theorem fitP384_eq_ok {input digest : Bytes} :
    fitP384 input = .ok digest ↔ input ≠ [] ∧ ¬ Degenerate input ∧
      digest = List.replicate (sha384DigestBytes - input.length) 0 ++
        input.take sha384DigestBytes := by
  have hfit : (List.replicate sha384DigestBytes (0 : UInt8)).take
      (sha384DigestBytes - (input.take (min input.length sha384DigestBytes)).length) ++
      input.take (min input.length sha384DigestBytes) =
      List.replicate (sha384DigestBytes - input.length) 0 ++ input.take sha384DigestBytes := by
    rw [List.take_replicate, List.length_take]
    rcases le_total input.length sha384DigestBytes with hle | hle
    · rw [min_eq_left hle, List.take_length, List.take_of_length_le hle]
      congr 2
      omega
    · rw [min_eq_right hle]
      congr 2
      omega
  simp only [fitP384, bind_eq_ok, ensure_eq_ok, rejectDegenerateDigest_eq_ok, pure_eq_ok, hfit,
    Bool.not_eq_true', List.isEmpty_eq_false_iff]
  constructor
  · intro h
    obtain ⟨-, hne, -, hdegenerate, hdigest⟩ := h
    exact ⟨hne, hdegenerate, hdigest.symm⟩
  · intro h
    obtain ⟨hne, hdegenerate, hdigest⟩ := h
    exact ⟨(), hne, (), hdegenerate, hdigest.symm⟩

theorem beValue_zeros (k : Nat) : beValue (List.replicate k 0) = 0 := by
  rw [← allZero_iff, allZero, List.all_eq_true]
  intro b hb
  rw [List.eq_of_mem_replicate hb]
  decide

theorem beValue_pad (k : Nat) (bs : Bytes) : beValue (List.replicate k 0 ++ bs) = beValue bs := by
  rw [beValue_append, beValue_zeros]
  omega

/-- Zeros in front make no digest degenerate. -/
theorem degenerate_pad {k : Nat} {bs : Bytes} (h : Degenerate (List.replicate k 0 ++ bs)) :
    Degenerate bs := by
  rcases Nat.eq_zero_or_pos k with rfl | hk
  · simpa using h
  have hlt := beValue_lt bs
  unfold Degenerate at h ⊢
  rw [beValue_pad, List.reverse_append, List.reverse_replicate, beValue_append, beValue_zeros,
    List.length_append, List.length_replicate] at h
  rcases h with h | h | h | h
  · exact .inl h
  · exact .inr (.inl h)
  · -- a leading zero keeps the number below the largest
    have hgrow : 256 ^ bs.length * 256 ≤ 256 ^ (k + bs.length) := by
      rw [← pow_succ]
      exact Nat.pow_le_pow_right (by decide) (by omega)
    omega
  · have hdvd : 256 ∣ beValue bs.reverse * 256 ^ k + 0 :=
      Dvd.dvd.mul_left (dvd_pow_self 256 hk.ne') _
    rw [h] at hdvd
    exact absurd hdvd (by decide)

/-- **The fitted digest is right exactly where what is cut off does not leave a degenerate
    one**: the check looks at the input, the card signs its first 48 octets. -/
theorem fitted_iff (input : Bytes) :
    Fitted input ↔ ¬ (sha384DigestBytes < input.length ∧
      Degenerate (input.take sha384DigestBytes) ∧ ¬ Degenerate input) := by
  constructor
  · intro hfitted hcut
    obtain ⟨hlong, hdegenerate, hinput⟩ := hcut
    have hne : input ≠ [] := by
      intro hnil
      rw [hnil] at hlong
      simp at hlong
    obtain ⟨-, -, hreject⟩ := hfitted _ (fitP384_eq_ok.mpr ⟨hne, hinput, rfl⟩)
    rw [rejectDegenerateDigest_eq_ok] at hreject
    have hpad : sha384DigestBytes - input.length = 0 := by omega
    rw [hpad, List.replicate_zero, List.nil_append] at hreject
    exact hreject hdegenerate
  · intro hcut digest hdigest
    obtain ⟨hne, hinput, rfl⟩ := fitP384_eq_ok.mp hdigest
    rw [rejectDegenerateDigest_eq_ok, beValue_pad]
    refine ⟨?_, ?_, fun hdegenerate => ?_⟩
    · rw [List.length_append, List.length_replicate, List.length_take]
      omega
    · unfold signedNumber
      split_ifs with hshort
      · rw [List.take_of_length_le hshort]
      · exact beValue_take input sha384DigestBytes
    · have htaken := degenerate_pad hdegenerate
      by_cases hlong : sha384DigestBytes < input.length
      · exact hcut ⟨hlong, htaken, hinput⟩
      · rw [List.take_of_length_le (by omega)] at htaken
        exact hinput htaken

/-- 48 zeros and more behind them: the input passes, the card is given the zeros. -/
theorem cleared_digest_fitted :
    fitP384 (List.replicate 48 0 ++ List.replicate 16 2) = .ok (List.replicate 48 0) ∧
      ¬ Fitted (List.replicate 48 0 ++ List.replicate 16 2) := by
  have hfit : fitP384 (List.replicate 48 0 ++ List.replicate 16 2) = .ok (List.replicate 48 0) := by
    decide
  refine ⟨hfit, fun hfitted => ?_⟩
  have hreject := (hfitted _ hfit).2.2
  exact absurd hreject (by decide)

end SignInput

end RefineId
