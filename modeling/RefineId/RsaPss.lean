/-
  RefineId.RsaPss — RSASSA-PSS with SHA-256 and a salt of 32 octets.
  ════════════════════════════════════════════════════════════════════════════

  `crates/refineid-doc-sign/src/rsa.rs`: `raw_recover`, `mgf1_sha256`,
  `verify_pss_encoded_sha256` and `verify_pss_sha256_digest`.  SHA-256 is any function to 32
  octets.  The capacity a vector is created with is not part of its value.

  `emsaPssEncode` and `mgf1` are the encoder and the mask generation function of the
  standard, written from their own description; the verifier never encodes.

  Main results:
    • `mgf1Sha256_eq`                 : the mask is the one of MGF1, for every length.
    • `applyMask_applyMask`           : masking undoes itself below the unused bits.
    • `encoded_of_accepted`, `accepted_of_encoded` : the accepted messages are the encodings
                                        of the digest.
    • `rawRecover_iff`                : what is recovered from a signature.
    • `verifyPssSha256Digest_exact`   : the verifier as a whole.
-/
import Mathlib.Data.Nat.Size
import RefineId.Rsa

namespace RefineId

open Ber Lib

/-! ## §1. The verifier -/

/-- SHA-256, as far as the verifier knows it. -/
structure Sha256 where
  digest : Bytes → Bytes
  length_digest : ∀ message, (digest message).length = 32

namespace Pss

/-- `PSS_TRAILER_FIELD`. -/
def trailerField : UInt8 := 0xBC

/-- `PSS_DB_SEPARATOR`. -/
def dbSeparator : UInt8 := 0x01

/-- `PSS_SHA256_SALT_BYTES`. -/
def saltBytes : Nat := 32

/-- Octets zero; `PSS_ZERO_PREFIX_BYTES` of them stand before the digest and the salt. -/
def zeros (n : Nat) : Bytes := List.replicate n 0

/-- `RsaModulus::bit_length`. -/
def bitLength (modulus : Bytes) : Nat := (magnitudeBits modulus).getD 0

/-- The octets of a recovered number, cut or padded to `k`. -/
def toModulusSize (k : Nat) (emBox : Bytes) : Except RsaVerifyError Bytes :=
  if k < emBox.length then encodedMessage k emBox
  else .ok (zeros (k - emBox.length) ++ emBox)

/-- `raw_recover`. -/
def rawRecover (key : RsaPublicKey) (signature : Bytes) : Except RsaVerifyError Bytes := do
  let k := key.modulus.length
  ensure (signature.length = k) .signatureOutOfRange
  ensure (k * 8 < 2 ^ 32) .badModulus
  let bitsPrecision := limbPrecision (k * 8)
  let modulus ← okOr .badModulus (fromBeSlice key.modulus bitsPrecision)
  let exponent := beValue key.exponent
  let signatureUint ← okOr .signatureOutOfRange (fromBeSlice signature bitsPrecision)
  ensure (signatureUint < modulus) .signatureOutOfRange
  -- `Odd::new`
  ensure (modulus % 2 = 1) .badModulus
  toModulusSize k (octets (bitsPrecision / 8) (signatureUint ^ exponent % modulus))

variable (H : Sha256)

/-- One turn of the loop of `mgf1_sha256`; the counter must fit in 32 bits. -/
def mgf1Turn (seed mask : Bytes) (index : Nat) : Except RsaVerifyError Bytes := do
  ensure (index < 2 ^ 32) .badPadding
  return mask ++ H.digest (seed ++ octets 4 index)

/-- `mgf1_sha256`. -/
def mgf1Sha256 (seed : Bytes) (outputLen : Nat) : Except RsaVerifyError Bytes := do
  ensure (outputLen + 31 ≤ usizeMax) .badPadding
  let mask ← (List.range ((outputLen + 31) / 32)).foldlM (mgf1Turn H seed) []
  return mask.take outputLen

/-- `high_mask`: the unused bits of the first octet. -/
def highMask (unusedBits : Nat) : UInt8 :=
  if unusedBits = 0 then 0 else UInt8.ofNat (0xFF <<< (8 - unusedBits) % 256)

/-- `*first &= !high_mask`. -/
def clearHigh (mask : UInt8) : Bytes → Bytes
  | [] => []
  | first :: rest => (first &&& ~~~mask) :: rest

/-- `verify_pss_encoded_sha256`. -/
def verifyPssEncodedSha256 (encoded : Bytes) (encodedBits : Nat) (messageDigest : Bytes) :
    Except RsaVerifyError Unit := do
  ensure (32 + saltBytes + 2 ≤ encoded.length && encoded.getLast? = some trailerField) .badPadding
  let dbLen := encoded.length - 33
  let maskedDb := encoded.take dbLen
  let hash := (encoded.drop dbLen).take 32
  ensure (encoded.length * 8 ≤ usizeMax) .badPadding
  ensure (encodedBits ≤ encoded.length * 8) .badPadding
  let unusedBits := encoded.length * 8 - encodedBits
  ensure (unusedBits < 8) .badPadding
  let mask := highMask unusedBits
  ensure (maskedDb.head?.any fun first => first &&& mask = 0) .badPadding
  let dbMask ← mgf1Sha256 H hash dbLen
  let db := clearHigh mask (List.zipWith (· ^^^ ·) maskedDb dbMask)
  ensure (db ≠ []) .badPadding
  let paddingLen := dbLen - (saltBytes + 1)
  ensure (paddingLen ≤ db.length && (db.take paddingLen).all (· = 0) &&
    db[paddingLen]? = some dbSeparator) .badPadding
  let salt := db.drop (paddingLen + 1)
  ensure (salt.length = saltBytes) .badPadding
  ensure (H.digest (zeros 8 ++ messageDigest ++ salt) = hash) .badDigest

/-- The part of `verify_pss_sha256_digest` after `raw_recover`. -/
def verifyRecovered (modulus digest recovered : Bytes) : Except RsaVerifyError Unit := do
  let modulusBits := bitLength modulus
  ensure (1 ≤ modulusBits) .badModulus
  let encodedBits := modulusBits - 1
  let encodedLen := (encodedBits + 7) / 8
  let encoded := recovered.drop (recovered.length - encodedLen)
  ensure ((recovered.take (recovered.length - encoded.length)).all (· = 0)) .badPadding
  verifyPssEncodedSha256 H encoded encodedBits digest

/-- `verify_pss_sha256_digest`. -/
def verifyPssSha256Digest (key : RsaPublicKey) (digest signature : Bytes) :
    Except RsaVerifyError Unit := do
  ensure (digest.length = 32) .badDigest
  let recovered ← rawRecover key signature
  verifyRecovered H key.modulus digest recovered

/-! ## §2. The standard -/

/-- MGF1 with SHA-256: the leading octets of the digests of the seed and a counter of four
    octets; `none` is the error "mask too long". -/
def mgf1 (seed : Bytes) (maskLen : Nat) : Option Bytes :=
  if 2 ^ 32 * 32 < maskLen then none
  else some (((List.range ((maskLen + 31) / 32)).flatMap fun counter =>
    H.digest (seed ++ octets 4 counter)).take maskLen)

/-- Set the leftmost `bits` bits of the leftmost octet to zero. -/
def clearLeftmost (bits : Nat) : Bytes → Bytes
  | [] => []
  | first :: rest => (first &&& UInt8.ofNat (0xFF >>> bits)) :: rest

/-- EMSA-PSS-ENCODE of a digest to `emBits` bits; `none` is the error "encoding error". -/
def emsaPssEncode (mHash salt : Bytes) (emBits : Nat) : Option Bytes := do
  let emLen := (emBits + 7) / 8
  guard (32 + salt.length + 2 ≤ emLen)
  let h := H.digest (zeros 8 ++ mHash ++ salt)
  let db := zeros (emLen - salt.length - 32 - 2) ++ [0x01] ++ salt
  let dbMask ← mgf1 H h (emLen - 32 - 1)
  let maskedDb := clearLeftmost (8 * emLen - emBits) (List.zipWith (· ^^^ ·) db dbMask)
  return maskedDb ++ h ++ [0xBC]

/-- A representative of `recovered.length` octets that encodes the digest with some salt. -/
structure PssEncoded (modBits : Nat) (digest recovered : Bytes) : Prop where
  leading : ∀ b ∈ recovered.take (recovered.length - (modBits - 1 + 7) / 8), b = 0
  message : ∃ salt, salt.length = 32 ∧ emsaPssEncode H digest salt (modBits - 1) =
    some (recovered.drop (recovered.length - (modBits - 1 + 7) / 8))

/-! ## §3. The mask -/

/-- What the loop has gathered after `n` turns. -/
theorem foldlM_mgf1Turn (seed : Bytes) (n : Nat) {mask : Bytes} :
    (List.range n).foldlM (mgf1Turn H seed) [] = .ok mask ↔
      n ≤ 2 ^ 32 ∧
        mask = (List.range n).flatMap fun counter => H.digest (seed ++ octets 4 counter) := by
  induction n generalizing mask with
  | zero =>
    show Except.ok [] = Except.ok mask ↔ _
    simp [eq_comm]
  | succ n ih =>
    rw [List.range_succ, List.foldlM_append, bind_eq_ok]
    have hturn (gathered : Bytes) : [n].foldlM (mgf1Turn H seed) gathered = .ok mask ↔
        n < 2 ^ 32 ∧ gathered ++ H.digest (seed ++ octets 4 n) = mask := by
      simp only [List.foldlM_cons, List.foldlM_nil, bind_eq_ok, pure_eq_ok, mgf1Turn, ensure_eq_ok,
        decide_eq_true_eq, exists_eq_right]
      simp
    constructor
    · intro h
      obtain ⟨gathered, hgathered, hlast⟩ := h
      obtain ⟨-, rfl⟩ := ih.mp hgathered
      obtain ⟨hn, rfl⟩ := (hturn _).mp hlast
      exact ⟨hn, by simp⟩
    · intro h
      obtain ⟨hn, rfl⟩ := h
      exact ⟨_, ih.mpr ⟨by omega, rfl⟩, (hturn _).mpr ⟨hn, by simp⟩⟩

theorem mgf1Sha256_eq_ok {seed mask : Bytes} {len : Nat} :
    mgf1Sha256 H seed len = .ok mask ↔ mgf1 H seed len = some mask := by
  simp only [mgf1Sha256, bind_eq_ok, ensure_eq_ok, decide_eq_true_eq, pure_eq_ok,
    foldlM_mgf1Turn, mgf1]
  have hblocks : (len + 31) / 32 ≤ 2 ^ 32 ↔ ¬ 2 ^ 32 * 32 < len := by omega
  constructor
  · intro h
    obtain ⟨-, -, gathered, ⟨hn, rfl⟩, rfl⟩ := h
    rw [if_neg (hblocks.mp hn)]
  · intro h
    split at h
    · exact absurd h (by simp)
    · next hlen =>
      refine ⟨(), ?_, _, ⟨hblocks.mpr hlen, rfl⟩, Option.some.inj h⟩
      unfold usizeMax
      omega

/-- **MGF1**: the mask, and the refusal of a mask that is too long. -/
theorem mgf1Sha256_eq (seed : Bytes) (len : Nat) :
    (mgf1Sha256 H seed len).toOption = mgf1 H seed len := by
  apply Option.ext
  intro mask
  rw [toOption_eq_some, mgf1Sha256_eq_ok]

theorem mgf1_length {seed mask : Bytes} {len : Nat} (h : mgf1 H seed len = some mask) :
    mask.length = len := by
  unfold mgf1 at h
  split at h
  · exact absurd h (by simp)
  · have hblocks (n : Nat) : ((List.range n).flatMap fun counter =>
        H.digest (seed ++ octets 4 counter)).length = n * 32 := by
      induction n with
      | zero => rfl
      | succ n ih =>
        rw [List.range_succ, List.flatMap_append, List.length_append, ih]
        simp only [List.flatMap_cons, List.flatMap_nil, List.append_nil, H.length_digest]
        omega
    rw [← Option.some.inj h, List.length_take, hblocks]
    omega

/-! ## §4. The unused bits -/

/-- Masking an octet twice, the unused bits cleared both times. -/
theorem octet_masked_twice {x mask : UInt8} (y : UInt8) (h : x &&& mask = 0) :
    (((x ^^^ y) &&& ~~~mask) ^^^ y) &&& ~~~mask = x := by
  apply UInt8.eq_of_toBitVec_eq
  have hbits := congrArg UInt8.toBitVec h
  simp only [UInt8.toBitVec_and, UInt8.toBitVec_xor, UInt8.toBitVec_not] at hbits ⊢
  ext i hi
  have hbit := congrArg (fun v => v[i]) hbits
  simp only [BitVec.getElem_and, BitVec.getElem_xor, BitVec.getElem_not] at hbit ⊢
  revert hbit
  cases x.toBitVec[i] <;> cases y.toBitVec[i] <;> cases mask.toBitVec[i] <;> simp

theorem octet_cleared (x mask : UInt8) : (x &&& ~~~mask) &&& mask = 0 := by
  rw [UInt8.and_assoc, UInt8.not_and_self, UInt8.and_zero]

/-- The two ways to clear the unused bits. -/
theorem clearLeftmost_eq {unused : Nat} (h : unused < 8) (bytes : Bytes) :
    clearLeftmost unused bytes = clearHigh (highMask unused) bytes := by
  have hmask : UInt8.ofNat (0xFF >>> unused) = ~~~ highMask unused := by
    interval_cases unused <;> rfl
  cases bytes with
  | nil => rfl
  | cons first rest => rw [clearLeftmost, clearHigh, hmask]

/-- No octet of less than the unused bits is lost. -/
theorem separator_clear {unused : Nat} (h : unused < 8) : dbSeparator &&& highMask unused = 0 := by
  interval_cases unused <;> rfl

theorem zipWith_xor_twice {xs ys : Bytes} (hlen : xs.length = ys.length) :
    List.zipWith (· ^^^ ·) (List.zipWith (· ^^^ ·) xs ys) ys = xs := by
  induction xs generalizing ys with
  | nil => cases ys <;> simp
  | cons x xs ih =>
    cases ys with
    | nil => simp at hlen
    | cons y ys =>
      have hrest : xs.length = ys.length := by simpa using hlen
      simp only [List.zipWith_cons_cons, ih hrest, UInt8.xor_assoc, UInt8.xor_self, UInt8.xor_zero]

/-- The octets under a mask, with the unused bits cleared. -/
def applyMask (mask : UInt8) (xs ys : Bytes) : Bytes :=
  clearHigh mask (List.zipWith (· ^^^ ·) xs ys)

/-- The unused bits of the first octet are zero. -/
def TopClear (mask : UInt8) (xs : Bytes) : Prop := xs.head?.any (fun first => first &&& mask = 0)

theorem applyMask_topClear {mask : UInt8} {xs ys : Bytes} (hlen : xs.length = ys.length)
    (hne : xs ≠ []) : TopClear mask (applyMask mask xs ys) := by
  obtain ⟨x, xs, rfl⟩ := List.exists_cons_of_ne_nil hne
  cases ys with
  | nil => simp at hlen
  | cons y ys => simp [TopClear, applyMask, clearHigh, octet_cleared]

/-- **Masking undoes itself** where the unused bits are zero. -/
theorem applyMask_applyMask {mask : UInt8} {xs ys : Bytes} (hlen : xs.length = ys.length)
    (htop : TopClear mask xs) : applyMask mask (applyMask mask xs ys) ys = xs := by
  cases xs with
  | nil => simp [TopClear] at htop
  | cons x xs =>
    cases ys with
    | nil => simp at hlen
    | cons y ys =>
      have hrest : xs.length = ys.length := by simpa using hlen
      have hx : x &&& mask = 0 := by simpa [TopClear] using htop
      simp only [applyMask, clearHigh, List.zipWith_cons_cons, octet_masked_twice y hx,
        zipWith_xor_twice hrest]

theorem applyMask_length {mask : UInt8} {xs ys : Bytes} (hlen : xs.length = ys.length) :
    (applyMask mask xs ys).length = xs.length := by
  have hclear (bytes : Bytes) : (clearHigh mask bytes).length = bytes.length := by
    cases bytes <;> rfl
  rw [applyMask, hclear, List.length_zipWith, hlen, Nat.min_self]

/-! ## §5. The accepted messages -/

/-- The data block of a salt, in `n` octets. -/
def dataBlock (n : Nat) (salt : Bytes) : Bytes :=
  zeros (n - (salt.length + 1)) ++ dbSeparator :: salt

theorem dataBlock_length {n : Nat} {salt : Bytes} (h : salt.length + 1 ≤ n) :
    (dataBlock n salt).length = n := by
  simp only [dataBlock, zeros, List.length_append, List.length_replicate, List.length_cons]
  omega

theorem dataBlock_topClear {unused n : Nat} (h : unused < 8) (salt : Bytes) :
    TopClear (highMask unused) (dataBlock n salt) := by
  unfold TopClear dataBlock zeros
  cases n - (salt.length + 1) with
  | zero => simp [separator_clear h]
  | succ m => simp [List.replicate_succ]

/-- The checks on the unmasked block: zeros, the separator, and a salt of 32 octets. -/
theorem dataBlock_iff {db : Bytes} {n : Nat} (hlen : db.length = n) (hn : 33 ≤ n) :
    (((n - 33 ≤ db.length ∧ (db.take (n - 33)).all (· = 0) = true) ∧
      db[n - 33]? = some dbSeparator)) ↔
      db = dataBlock n (db.drop (n - 33 + 1)) := by
  have hsalt : (db.drop (n - 33 + 1)).length = 32 := by
    rw [List.length_drop]
    omega
  have hpad : n - (32 + 1) = n - 33 := rfl
  rw [dataBlock, hsalt, hpad]
  constructor
  · intro h
    obtain ⟨⟨-, hzero⟩, hsep⟩ := h
    have htake : db.take (n - 33) = zeros (n - 33) := by
      rw [zeros, List.eq_replicate_iff]
      refine ⟨by rw [List.length_take]; omega, fun b hb => ?_⟩
      simpa using List.all_eq_true.mp hzero b hb
    obtain ⟨hlt, hat⟩ := List.getElem?_eq_some_iff.mp hsep
    calc db = db.take (n - 33) ++ db.drop (n - 33) := (List.take_append_drop _ _).symm
      _ = zeros (n - 33) ++ dbSeparator :: db.drop (n - 33 + 1) := by
        rw [htake, List.drop_eq_getElem_cons hlt, hat]
  · intro h
    generalize db.drop (n - 33 + 1) = salt at h
    subst h
    simp [zeros]

/-- What EMSA-PSS-ENCODE gives for a salt of 32 octets. -/
theorem emsaPssEncode_iff {digest salt em : Bytes} {emBits : Nat} (hsalt : salt.length = 32) :
    emsaPssEncode H digest salt emBits = some em ↔
      66 ≤ (emBits + 7) / 8 ∧
        ∃ dbMask, mgf1 H (H.digest (zeros 8 ++ digest ++ salt)) ((emBits + 7) / 8 - 33) =
            some dbMask ∧
          applyMask (highMask (8 * ((emBits + 7) / 8) - emBits))
              (dataBlock ((emBits + 7) / 8 - 33) salt) dbMask ++
            H.digest (zeros 8 ++ digest ++ salt) ++ [trailerField] = em := by
  have hunused : 8 * ((emBits + 7) / 8) - emBits < 8 := by omega
  simp only [emsaPssEncode, hsalt, Option.bind_eq_bind, Option.bind_eq_some_iff, Option.pure_def,
    Option.guard_eq_some', Option.some.injEq, clearLeftmost_eq hunused, applyMask, dataBlock,
    Nat.sub_sub, trailerField, dbSeparator, List.append_assoc, List.singleton_append]
  constructor
  · intro h
    obtain ⟨-, hlen, dbMask, hmask, rfl⟩ := h
    exact ⟨hlen, dbMask, hmask, rfl⟩
  · intro h
    obtain ⟨hlen, dbMask, hmask, rfl⟩ := h
    exact ⟨(), hlen, dbMask, hmask, rfl⟩

/-- What every check of `verify_pss_encoded_sha256` asks for. -/
theorem verifyPssEncodedSha256_eq_ok {encoded digest : Bytes} {encodedBits : Nat} :
    verifyPssEncodedSha256 H encoded encodedBits digest = .ok () ↔
      (66 ≤ encoded.length ∧ encoded.getLast? = some trailerField) ∧
      encoded.length * 8 ≤ usizeMax ∧ encodedBits ≤ encoded.length * 8 ∧
      encoded.length * 8 - encodedBits < 8 ∧
      TopClear (highMask (encoded.length * 8 - encodedBits)) (encoded.take (encoded.length - 33)) ∧
      ∃ dbMask, mgf1 H ((encoded.drop (encoded.length - 33)).take 32) (encoded.length - 33) =
          some dbMask ∧
        ∃ db, db = applyMask (highMask (encoded.length * 8 - encodedBits))
            (encoded.take (encoded.length - 33)) dbMask ∧ db ≠ [] ∧
          ((encoded.length - 33 - 33 ≤ db.length ∧
            (db.take (encoded.length - 33 - 33)).all (· = 0) = true) ∧
              db[encoded.length - 33 - 33]? = some dbSeparator) ∧
          (db.drop (encoded.length - 33 - 33 + 1)).length = 32 ∧
          H.digest (zeros 8 ++ digest ++ db.drop (encoded.length - 33 - 33 + 1)) =
            (encoded.drop (encoded.length - 33)).take 32 := by
  unfold verifyPssEncodedSha256
  simp only [bind_eq_ok, ensure_eq_ok, mgf1Sha256_eq_ok, Bool.and_eq_true, decide_eq_true_eq]
  simp only [exists_const, exists_eq_left]
  rfl

/-- An accepted message is the encoding with the salt that stands in its unmasked block. -/
theorem encoded_of_accepted {encoded digest : Bytes} {encodedBits : Nat}
    (hlen : encoded.length = (encodedBits + 7) / 8)
    (h : verifyPssEncodedSha256 H encoded encodedBits digest = .ok ()) :
    ∃ salt, salt.length = 32 ∧ emsaPssEncode H digest salt encodedBits = some encoded := by
  obtain ⟨⟨hlong, htrailer⟩, -, -, -, htop, dbMask, hmask, db, hdb, -, hpadding, hsalt, hdigest⟩ :=
    (verifyPssEncodedSha256_eq_ok H).mp h
  have hbits : 8 * ((encodedBits + 7) / 8) - encodedBits = encoded.length * 8 - encodedBits := by
    omega
  have htake : (encoded.take (encoded.length - 33)).length = dbMask.length := by
    rw [List.length_take, mgf1_length H hmask]
    omega
  have hdbLen : db.length = encoded.length - 33 := by
    rw [hdb, applyMask_length htake, List.length_take]
    omega
  have hblock := (dataBlock_iff hdbLen (by omega)).mp hpadding
  -- masking the block again gives back the octets that were read
  have hmasked : applyMask (highMask (encoded.length * 8 - encodedBits))
      (dataBlock (encoded.length - 33) (db.drop (encoded.length - 33 - 33 + 1))) dbMask =
        encoded.take (encoded.length - 33) := by
    rw [← hblock, hdb]
    exact applyMask_applyMask htake htop
  have hend : (encoded.drop (encoded.length - 33)).drop 32 = [trailerField] := by
    obtain ⟨front, hfront⟩ := List.getLast?_eq_some_iff.mp htrailer
    rw [List.drop_drop, show encoded.length - 33 + 32 = encoded.length - 1 by omega, hfront]
    simp
  refine ⟨_, hsalt, (emsaPssEncode_iff H hsalt).mpr ⟨by omega, dbMask, ?_, ?_⟩⟩
  · rw [hdigest, ← hlen]
    exact hmask
  · rw [hbits, ← hlen, hmasked, hdigest, ← hend, List.append_assoc, List.take_append_drop,
      List.take_append_drop]

/-- An encoding of the digest is accepted. -/
theorem accepted_of_encoded {encoded digest salt : Bytes} {encodedBits : Nat}
    (hfits : encoded.length * 8 ≤ usizeMax) (hlen : encoded.length = (encodedBits + 7) / 8)
    (hsalt : salt.length = 32) (h : emsaPssEncode H digest salt encodedBits = some encoded) :
    verifyPssEncodedSha256 H encoded encodedBits digest = .ok () := by
  obtain ⟨hlong, dbMask, hmask, hem⟩ := (emsaPssEncode_iff H hsalt).mp h
  have hbits : 8 * ((encodedBits + 7) / 8) - encodedBits = encoded.length * 8 - encodedBits := by
    omega
  rw [hbits, ← hlen] at hem
  rw [← hlen] at hlong hmask
  have hunused : encoded.length * 8 - encodedBits < 8 := by omega
  have hblockLen : (dataBlock (encoded.length - 33) salt).length = encoded.length - 33 :=
    dataBlock_length (by omega)
  have hboth : (dataBlock (encoded.length - 33) salt).length = dbMask.length := by
    rw [hblockLen, mgf1_length H hmask]
  have htop := dataBlock_topClear (n := encoded.length - 33) hunused salt
  -- the message falls apart where the verifier cuts it
  generalize hmasked : applyMask (highMask (encoded.length * 8 - encodedBits))
    (dataBlock (encoded.length - 33) salt) dbMask = masked at hem
  have hmaskedLen : masked.length = encoded.length - 33 := by
    rw [← hmasked, applyMask_length hboth, hblockLen]
  have htake : encoded.take (encoded.length - 33) = masked := by
    rw [← hmaskedLen, ← hem, List.append_assoc, List.take_left]
  have hdrop : encoded.drop (encoded.length - 33) =
      H.digest (zeros 8 ++ digest ++ salt) ++ [trailerField] := by
    rw [← hmaskedLen, ← hem, List.append_assoc, List.drop_left]
  have hhash : (encoded.drop (encoded.length - 33)).take 32 =
      H.digest (zeros 8 ++ digest ++ salt) := by
    rw [hdrop, List.take_left' (H.length_digest _)]
  have hunmasked : dataBlock (encoded.length - 33) salt =
      applyMask (highMask (encoded.length * 8 - encodedBits)) masked dbMask := by
    rw [← hmasked, applyMask_applyMask hboth htop]
  have hsaltAt : (dataBlock (encoded.length - 33) salt).drop (encoded.length - 33 - 33 + 1) =
      salt := by
    rw [dataBlock, hsalt, zeros]
    simp [List.drop_append]
  have hne : dataBlock (encoded.length - 33) salt ≠ [] := by
    intro hnil
    rw [hnil, List.length_nil] at hblockLen
    omega
  refine (verifyPssEncodedSha256_eq_ok H).mpr ⟨⟨hlong, ?_⟩, hfits, by omega, hunused, ?_, dbMask, ?_,
    dataBlock (encoded.length - 33) salt, ?_, hne, ?_, ?_, ?_⟩
  · rw [← hem]
    exact List.getLast?_concat
  · rw [htake, ← hmasked]
    exact applyMask_topClear hboth hne
  · rw [hhash]
    exact hmask
  · rw [htake]
    exact hunmasked
  · refine (dataBlock_iff hblockLen (by omega)).mpr ?_
    rw [hsaltAt]
  · rw [hsaltAt]
    exact hsalt
  · rw [hsaltAt, hhash]

/-! ## §6. The verifier -/

/-- The bit length of an admitted modulus, and the octets it takes. -/
theorem bitLength_admitted {modulus modulusBytes : Bytes}
    (hmod : RsaModulus.tryFromPkcs1 modulusBytes = .ok modulus) :
    bitLength modulus = Nat.size (beValue modulus) ∧ 1 ≤ bitLength modulus ∧
      bitLength modulus ≤ modulus.length * 8 := by
  cases modulusBytes with
  | nil => simp [RsaModulus.tryFromPkcs1, bind_eq_ok, okOr_eq_ok] at hmod
  | cons first rest =>
    simp only [RsaModulus.tryFromPkcs1, bind_eq_ok, okOr_eq_ok, ensure_eq_ok, pure_eq_ok,
      List.head?_cons, Option.some.injEq, bne_iff_ne, decide_eq_true_eq] at hmod
    obtain ⟨_, rfl, -, hfirst, _, -, -, -, bits, hbits, -, hmin, -, -, rfl⟩ := hmod
    obtain ⟨bits', hbits', hiff⟩ := @magnitudeBits_le_iff _ rest hfirst
    obtain rfl : bits = bits' := Option.some.inj (hbits.symm.trans hbits')
    have hsize : bits = Nat.size (beValue (first :: rest)) := by
      apply Nat.le_antisymm
      · exact (hiff _).mpr (Nat.size_le.mp (Nat.le_refl _))
      · exact Nat.size_le.mpr ((hiff _).mp (Nat.le_refl _))
    rw [bitLength, hbits, Option.getD_some]
    refine ⟨hsize, (by decide : 1 ≤ RsaModulus.minBits).trans hmin, (hiff _).mpr ?_⟩
    rw [Nat.mul_comm, Nat.pow_mul]
    exact beValue_lt _

theorem toModulusSize_octets {a k m : Nat} (hm : m < 256 ^ k) :
    toModulusSize k (octets (a + k) m) = .ok (octets k m) := by
  unfold toModulusSize
  split
  · exact encodedMessage_octets hm
  · next hlong =>
    rw [octets_length] at hlong
    obtain rfl : a = 0 := by omega
    rw [octets_length, Nat.zero_add, Nat.sub_self]
    rfl

/-- **What is recovered**: the power of a number below the modulus, in as many octets as the
    modulus has. -/
theorem rawRecover_iff {key : RsaPublicKey} {modulusBytes signature em : Bytes}
    (hmod : RsaModulus.tryFromPkcs1 modulusBytes = .ok key.modulus) :
    rawRecover key signature = .ok em ↔
      signature.length = key.modulus.length ∧ beValue signature < beValue key.modulus ∧
        em = octets key.modulus.length
          (beValue signature ^ beValue key.exponent % beValue key.modulus) := by
  obtain ⟨hbytes, hodd, hsmall⟩ := modulus_tryFromPkcs1 hmod
  rw [← hbytes] at hodd hsmall
  set k := key.modulus.length with hk
  have hprec : k * 8 ≤ limbPrecision (k * 8) := by
    unfold limbPrecision
    omega
  have hmodulus : fromBeSlice key.modulus (limbPrecision (k * 8)) = some (beValue key.modulus) :=
    if_pos hprec
  have hsignature (hsize : signature.length = k) :
      fromBeSlice signature (limbPrecision (k * 8)) = some (beValue signature) := by
    rw [fromBeSlice, hsize, if_pos hprec]
  obtain ⟨a, ha⟩ : ∃ a, limbPrecision (k * 8) / 8 = a + k := ⟨limbPrecision (k * 8) / 8 - k, by omega⟩
  have hpos : 0 < beValue key.modulus := by omega
  have hbox (m : Nat) : toModulusSize k (octets (a + k) (m % beValue key.modulus)) =
      .ok (octets k (m % beValue key.modulus)) :=
    toModulusSize_octets ((Nat.mod_lt _ hpos).trans (beValue_lt _))
  simp only [rawRecover, ← hk, bind_eq_ok, ensure_eq_ok, okOr_eq_ok, decide_eq_true_eq, ha,
    hmodulus, Option.some.injEq]
  constructor
  · intro h
    obtain ⟨-, hsize, -, -, _, rfl, s, hs, -, hrange, -, -, hem⟩ := h
    obtain rfl := Option.some.inj ((hsignature hsize).symm.trans hs)
    exact ⟨hsize, hrange, Except.ok.inj (hem.symm.trans (hbox _))⟩
  · intro h
    obtain ⟨hsize, hrange, rfl⟩ := h
    exact ⟨(), hsize, (), hsmall, _, rfl, _, hsignature hsize, (), hrange, (), hodd, hbox _⟩

/-- A representative is accepted when it encodes the digest, with zeros in front. -/
theorem verifyRecovered_iff {modulus modulusBytes digest recovered : Bytes}
    (hmod : RsaModulus.tryFromPkcs1 modulusBytes = .ok modulus)
    (hlen : recovered.length = modulus.length) :
    verifyRecovered H modulus digest recovered = .ok () ↔
      PssEncoded H (Nat.size (beValue modulus)) digest recovered := by
  obtain ⟨hsize, hpos, hle⟩ := bitLength_admitted hmod
  obtain ⟨hbytes, -, hsmall⟩ := modulus_tryFromPkcs1 hmod
  rw [← hbytes] at hsmall
  have hencoded : (recovered.drop (recovered.length - (bitLength modulus - 1 + 7) / 8)).length =
      (bitLength modulus - 1 + 7) / 8 := by
    rw [List.length_drop]
    omega
  have hfits : (recovered.drop (recovered.length - (bitLength modulus - 1 + 7) / 8)).length * 8 ≤
      usizeMax := by
    unfold usizeMax
    omega
  simp only [verifyRecovered, bind_eq_ok, ensure_eq_ok, decide_eq_true_eq, hencoded,
    List.all_eq_true, exists_const]
  rw [← hsize]
  constructor
  · intro h
    obtain ⟨-, hzero, haccepted⟩ := h
    exact ⟨hzero, encoded_of_accepted H hencoded haccepted⟩
  · intro h
    obtain ⟨hzero, salt, hsalt, hencode⟩ := h
    exact ⟨hpos, hzero, accepted_of_encoded H hfits hencoded hsalt hencode⟩

/-- **Exactness of PSS**: under a modulus that `RsaModulus` let in, of whatever bit length, a
    representative is accepted exactly when it is zeros and an EMSA-PSS encoding of the digest
    with a salt of 32 octets; the signatures accepted are those of the modulus's length below it
    whose power is such a representative; and the mask is the one of MGF1 for every length. -/
theorem verifyPssSha256Digest_exact {key : RsaPublicKey} {modulusBytes digest : Bytes}
    (hmod : RsaModulus.tryFromPkcs1 modulusBytes = .ok key.modulus) (hdigest : digest.length = 32) :
    (∀ recovered : Bytes, recovered.length = key.modulus.length →
      (verifyRecovered H key.modulus digest recovered = .ok () ↔
        PssEncoded H (Nat.size (beValue key.modulus)) digest recovered)) ∧
    (∀ signature : Bytes, verifyPssSha256Digest H key digest signature = .ok () ↔
      signature.length = key.modulus.length ∧ beValue signature < beValue key.modulus ∧
        PssEncoded H (Nat.size (beValue key.modulus)) digest (octets key.modulus.length
          (beValue signature ^ beValue key.exponent % beValue key.modulus))) ∧
    ∀ seed len, (mgf1Sha256 H seed len).toOption = mgf1 H seed len := by
  refine ⟨fun recovered hlen => verifyRecovered_iff H hmod hlen, fun signature => ?_,
    mgf1Sha256_eq H⟩
  simp only [verifyPssSha256Digest, bind_eq_ok, ensure_eq_ok, hdigest, decide_true, exists_const,
    true_and, rawRecover_iff hmod]
  constructor
  · intro h
    obtain ⟨recovered, ⟨hsize, hrange, rfl⟩, haccepted⟩ := h
    exact ⟨hsize, hrange, (verifyRecovered_iff H hmod (octets_length _ _)).mp haccepted⟩
  · intro h
    obtain ⟨hsize, hrange, hencoded⟩ := h
    exact ⟨_, ⟨hsize, hrange, rfl⟩,
      (verifyRecovered_iff H hmod (octets_length _ _)).mpr hencoded⟩

/-- SHA-256 of the messages below, by length and value; placeholder zeros elsewhere. -/
def sha256Values : List ((Nat × Nat) × Nat) :=
  [
   ((72, 0xa3ad86a0a018deaf8ce0722dfac8093a21c4caa833febbeda7624ff81fb8bb5d8634bd7bbed31204e0e942f94465e45ffeb39a9d76d9640b24ae519478850254),
      0xb448d4cc5f8714792f84eb194fcc5aba3272613245394ffb2d1c6d6d29019fe6),
   ((36, 0xb448d4cc5f8714792f84eb194fcc5aba3272613245394ffb2d1c6d6d29019fe600000000),
      0x5e6b175e7217dc7979576943c61a09f85483c185e549b7f2ccc76fb1e18987dd),
   ((36, 0xb448d4cc5f8714792f84eb194fcc5aba3272613245394ffb2d1c6d6d29019fe600000001),
      0xb9303442a4c88e7248a62d991269869bd9e8c71998acef351567f21e499a12ba),
   ((72, 0xa3ad86a0a018deaf8ce0722dfac8093a21c4caa833febbeda7624ff81fb8bb5d47cf147042b85b30db4bd475205951b6b78d8c13c52fadb831537defc6ad05fe),
      0x7a8898995e8652e63c5125291a7a12d2ebd1add638129833aa3c97c5934efcd1),
   ((36, 0x7a8898995e8652e63c5125291a7a12d2ebd1add638129833aa3c97c5934efcd100000000),
      0xf2a29355ad24ea29c49d0902cecd8ed9461443e6dc1264d62fe8746ef5368a38),
   ((36, 0x7a8898995e8652e63c5125291a7a12d2ebd1add638129833aa3c97c5934efcd100000001),
      0x36124a42ddad8edc7b7f0351ca2118c32d97a999296a8f7dd34b619a27e401c3)]

def sampleSha256 : Sha256 where
  digest message := octets 32 ((sha256Values.lookup (message.length, beValue message)).getD 0)
  length_digest _ := octets_length _ _

/-- The digest of the text `refineid`. -/
def sampleDigest : Bytes :=
  octets 32 0xa3ad86a0a018deaf8ce0722dfac8093a21c4caa833febbeda7624ff81fb8bb5d

/-- A key of 536 bits: an encoded message is as long as the modulus. -/
def evenKey : RsaPublicKey where
  modulus := octets 67 0xbcded8b6ce8b88c0182e30cb83af23fa79e508aba7a4ad3cb7c7bcb5b0474bad1fbde2de2cf8dcf738e619b5d6226c641f253fd6a975e4702a30e7c36f7a87814f0b57
  exponent := [3]

/-- A key of 529 bits: an encoded message is one octet shorter than the modulus. -/
def oddKey : RsaPublicKey where
  modulus := octets 67 0x1b50806f3b49e966739c25ed207ca08879cad590ec20304d06e5311f50d10bee36b2c4af46dcbe552ed3abb92187e899f0f3f2826ce38c24b01fb5519033a3b51af21
  exponent := [3]

/-- A signature of the sample digest under each of the two keys is accepted. -/
theorem sampleDigest_accepted :
    verifyPssSha256Digest sampleSha256 evenKey sampleDigest
      (octets 67 0x7c63a35d940bec953f9548c33cc695948c83e8f1bb82f00839c1c41d273fcb6d3f679efb51dbbb727654becab29a29f23ae55f27aa2978fd97c6aa5f8953089e5af966) = .ok () ∧
    verifyPssSha256Digest sampleSha256 oddKey sampleDigest
      (octets 67 0x3b84c2ef04d89071a0d007bc17b66e6a3a04d9da000fcb24401fed1b85e4203a7c2a6973f8f86dc502b22fa724e5569b93efa7593a529892396ea5072d1a3117f13d) = .ok () := by
  have heven : RsaModulus.tryFromPkcs1 evenKey.modulus = .ok evenKey.modulus := by decide
  have hodd : RsaModulus.tryFromPkcs1 oddKey.modulus = .ok oddKey.modulus := by decide
  have hdigest : sampleDigest.length = 32 := octets_length _ _
  constructor
  · refine ((verifyPssSha256Digest_exact sampleSha256 heven hdigest).2.1 _).mpr
      ⟨octets_length _ _, by decide +kernel, by decide +kernel, ?_⟩
    exact ⟨octets 32 0x8634bd7bbed31204e0e942f94465e45ffeb39a9d76d9640b24ae519478850254,
      octets_length _ _, by decide +kernel⟩
  · refine ((verifyPssSha256Digest_exact sampleSha256 hodd hdigest).2.1 _).mpr
      ⟨octets_length _ _, by decide +kernel, by decide +kernel, ?_⟩
    exact ⟨octets 32 0x47cf147042b85b30db4bd475205951b6b78d8c13c52fadb831537defc6ad05fe,
      octets_length _ _, by decide +kernel⟩

end Pss

end RefineId
