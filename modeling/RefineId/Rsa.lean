/-
  RefineId.Rsa — RSA public keys and RSASSA-PKCS1-v1_5.
  ════════════════════════════════════════════════════════════════════════════

  `crates/refineid-lib-core/src/crypto/rsa.rs` and the copy of it in
  `crates/refineid-doc-sign/src/rsa.rs`.  The modulus check and the verifier have the same
  text in both crates and are embedded once; the check of the public exponent was edited in
  one of them and is embedded twice.

  `crypto-bigint` is arithmetic on numbers: a `BoxedUint` is its value, the precision only
  decides which slices `from_be_slice` refuses and how many octets come back.

  Main results:
    • `magnitudeBits_le_iff`       : the bit length of a magnitude bounds its value.
    • `docSign_tryFromPkcs1_iff`   : the exponents of doc-sign are those of lib-core from 3
                                     up to 256 bits.
    • `verifyPkcs1v15_iff`         : the verifier accepts exactly the e-th roots of the
                                     padded digest.
    • `verifyPkcs1v15_exact`       : and leaves room for one padded message only.
-/
import RefineId.X509
import RefineId.Lib.Outcome

namespace RefineId

open Ber Lib

/-! ## §1. Key parts -/

/-- `RsaModulusError`. -/
inductive RsaModulusError where
  | empty
  | leadingZero
  | bitsTooFew (bits min : Nat)
  | bitsTooMany (bits max : Nat)
  | even
  deriving Repr, DecidableEq

def RsaModulus.minBits : Nat := 512
def RsaModulus.maxBits : Nat := 16384

/-- `RsaModulus::try_from_pkcs1`. -/
def RsaModulus.tryFromPkcs1 (bytes : Bytes) : Except RsaModulusError Bytes := do
  let first ← okOr .empty bytes.head?
  ensure (first != 0) .leadingZero
  let last ← okOr .empty bytes.getLast?
  ensure (last &&& 1 != 0) .even
  let bits ← okOr .empty (magnitudeBits bytes)
  ensure (minBits ≤ bits) (.bitsTooFew bits minBits)
  ensure (bits ≤ maxBits) (.bitsTooMany bits maxBits)
  return bytes

/-- `RsaPublicExponentError`; the last two are of doc-sign only. -/
inductive RsaPublicExponentError where
  | empty
  | leadingZero
  | even
  | tooSmall
  | tooLarge (bits max : Nat)
  deriving Repr, DecidableEq

/-- `RsaPublicExponent::try_from_pkcs1` of lib-core. -/
def RsaPublicExponent.tryFromPkcs1 (bytes : Bytes) : Except RsaPublicExponentError Bytes := do
  let first ← okOr .empty bytes.head?
  ensure (first != 0) .leadingZero
  let last ← okOr .empty bytes.getLast?
  ensure (last &&& 1 != 0) .even
  return bytes

namespace DocSign

def RsaPublicExponent.maxBits : Nat := 256

/-- `RsaPublicExponent::try_from_pkcs1` of doc-sign. -/
def RsaPublicExponent.tryFromPkcs1 (bytes : Bytes) : Except RsaPublicExponentError Bytes := do
  let first ← okOr .empty bytes.head?
  ensure (first != 0) .leadingZero
  let last ← okOr .empty bytes.getLast?
  ensure (last &&& 1 != 0) .even
  ensure (!(bytes.length = 1 && first < 3)) .tooSmall
  let bits ← okOr .empty (magnitudeBits bytes)
  ensure (bits ≤ maxBits) (.tooLarge bits maxBits)
  return bytes

end DocSign

/-- `extract_rsa_public_key`: lib-core's, which doc-sign calls too. -/
def extractRsaPublicKey (E : Externals) (spkiDer : Bytes) : Option RsaPublicKey := do
  let info ← E.spkiInfo spkiDer
  guard (info.algorithmOid = Oid.rsaEncryption)
  let (modulusBytes, exponentBytes) ← rsaPublicKeyParts E info.subjectPublicKey
  let modulus ← (RsaModulus.tryFromPkcs1 modulusBytes).toOption
  let exponent ← (RsaPublicExponent.tryFromPkcs1 exponentBytes).toOption
  return ⟨modulus, exponent⟩

/-! ## §2. The verifier -/

/-- `RsaVerifyError`. -/
inductive RsaVerifyError where
  | badModulus
  | signatureOutOfRange
  | badPadding
  | badDigestInfo
  | badDigest
  deriving Repr, DecidableEq

/-- `Display` of `RsaVerifyError`. -/
def RsaVerifyError.display : RsaVerifyError → String
  | .badModulus => "RSA: malformed modulus"
  | .signatureOutOfRange => "RSA: signature out of range vs modulus"
  | .badPadding => "RSA: PKCS#1 v1.5 padding mismatch"
  | .badDigestInfo => "RSA: SHA-256 DigestInfo prefix mismatch"
  | .badDigest => "RSA: signature digest does not match message"

/-- `BoxedUint::from_be_slice`: a slice longer than the precision is refused. -/
def fromBeSlice (bytes : Bytes) (bitsPrecision : Nat) : Option Nat :=
  if bytes.length * 8 ≤ bitsPrecision then some (beValue bytes) else none

/-- `next_multiple_of(BOXED_UINT_LIMB_BITS)`. -/
def limbPrecision (bits : Nat) : Nat := (bits + 63) / 64 * 64

/-- `SHA256_DIGEST_INFO`, `SHA384_DIGEST_INFO` and `SHA512_DIGEST_INFO`. -/
def digestInfo : HashAlg → Bytes
  | .sha256 => [0x30, 0x31, 0x30, 0x0D, 0x06, 0x09, 0x60, 0x86, 0x48, 0x01, 0x65, 0x03, 0x04,
      0x02, 0x01, 0x05, 0x00, 0x04, 0x20]
  | .sha384 => [0x30, 0x41, 0x30, 0x0D, 0x06, 0x09, 0x60, 0x86, 0x48, 0x01, 0x65, 0x03, 0x04,
      0x02, 0x02, 0x05, 0x00, 0x04, 0x30]
  | .sha512 => [0x30, 0x51, 0x30, 0x0D, 0x06, 0x09, 0x60, 0x86, 0x48, 0x01, 0x65, 0x03, 0x04,
      0x02, 0x03, 0x05, 0x00, 0x04, 0x40]

/-- The encoded message: the last `k` octets, when those before them are zero. -/
def encodedMessage (k : Nat) (emBox : Bytes) : Except RsaVerifyError Bytes := do
  let extra := emBox.length - k
  ensure ((emBox.take extra).all fun b => b = 0) .badPadding
  return emBox.drop extra

/-- The EMSA shape of `verify_pkcs1v15`: `00 01`, the padding, `00`, then the DigestInfo
    and the digest. -/
def checkEncoding (digestInfoBytes digest em : Bytes) : Except RsaVerifyError Unit := do
  ensure (digestInfoBytes.length + digest.length + 11 ≤ em.length && em.head? = some 0x00 &&
    em[1]? = some 0x01) .badPadding
  -- the loop from index 2 over the octets FF
  let psLen := ((em.drop 2).takeWhile fun b => b = 0xFF).length
  ensure (8 ≤ psLen && em[2 + psLen]? = some 0x00) .badPadding
  let payload := em.drop (2 + psLen + 1)
  ensure (payload.length = digestInfoBytes.length + digest.length) .badDigestInfo
  ensure (payload.take digestInfoBytes.length = digestInfoBytes) .badDigestInfo
  ensure (payload.drop digestInfoBytes.length = digest) .badDigest

/-- `verify_pkcs1v15`. -/
def verifyPkcs1v15 (key : RsaPublicKey) (digestInfoBytes digest signature : Bytes) :
    Except RsaVerifyError Unit := do
  let k := key.modulus.length
  ensure (signature.length = k) .signatureOutOfRange
  ensure (k * 8 < 2 ^ 32) .badModulus
  let bitsPrecision := limbPrecision (k * 8)
  let modulus ← okOr .badModulus (fromBeSlice key.modulus bitsPrecision)
  let exponent := beValue key.exponent
  let signatureUint ← okOr .signatureOutOfRange (fromBeSlice signature bitsPrecision)
  ensure (signatureUint < modulus) .signatureOutOfRange
  -- `Odd::new`
  ensure (modulus % 2 = 1) .badModulus
  let m := signatureUint ^ exponent % modulus
  let em ← encodedMessage k (octets (bitsPrecision / 8) m)
  checkEncoding digestInfoBytes digest em

/-! ## §3. The exponents of the two crates -/

/-- The bit length of a magnitude without leading zeros. -/
theorem magnitudeBits_le_iff {first : UInt8} {rest : Bytes} (hfirst : first ≠ 0) :
    ∃ bits, magnitudeBits (first :: rest) = some bits ∧
      ∀ n, bits ≤ n ↔ beValue (first :: rest) < 2 ^ n := by
  have hpos : first.toNat ≠ 0 := fun h => hfirst (UInt8.toNat_inj.mp h)
  have hlt : first.toNat < 2 ^ 8 := first.toNat_lt
  have hlog : Nat.log2 first.toNat < 8 := (Nat.log2_lt hpos).mpr hlt
  refine ⟨Nat.log2 first.toNat + 1 + 8 * rest.length, ?_, fun n => ?_⟩
  · simp only [magnitudeBits, hfirst, if_false, List.length_cons, Option.some.injEq]
    omega
  · have hpow : (256 : Nat) ^ rest.length = 2 ^ (8 * rest.length) := by
      rw [Nat.pow_mul]
    have hrest := beValue_lt rest
    rw [beValue_cons, hpow]
    rw [hpow] at hrest
    constructor
    · intro hn
      have hup : first.toNat + 1 ≤ 2 ^ (Nat.log2 first.toNat + 1) := Nat.lt_log2_self
      calc first.toNat * 2 ^ (8 * rest.length) + beValue rest
          < (first.toNat + 1) * 2 ^ (8 * rest.length) := by
            rw [Nat.add_mul]
            omega
        _ ≤ 2 ^ (Nat.log2 first.toNat + 1) * 2 ^ (8 * rest.length) :=
            Nat.mul_le_mul_right _ hup
        _ = 2 ^ (Nat.log2 first.toNat + 1 + 8 * rest.length) := (Nat.pow_add _ _ _).symm
        _ ≤ 2 ^ n := Nat.pow_le_pow_right (by decide) hn
    · intro hv
      have hdown : 2 ^ Nat.log2 first.toNat ≤ first.toNat := Nat.log2_self_le hpos
      have hle : 2 ^ (Nat.log2 first.toNat + 8 * rest.length) < 2 ^ n := by
        calc 2 ^ (Nat.log2 first.toNat + 8 * rest.length)
            = 2 ^ Nat.log2 first.toNat * 2 ^ (8 * rest.length) := Nat.pow_add _ _ _
          _ ≤ first.toNat * 2 ^ (8 * rest.length) := Nat.mul_le_mul_right _ hdown
          _ < 2 ^ n := by omega
      have := (Nat.pow_lt_pow_iff_right (by decide : 1 < 2)).mp hle
      omega

theorem exponent_tryFromPkcs1 {bytes out : Bytes}
    (h : RsaPublicExponent.tryFromPkcs1 bytes = .ok out) : out = bytes := by
  simp only [RsaPublicExponent.tryFromPkcs1, bind_eq_ok, pure_eq_ok] at h
  obtain ⟨_, -, _, -, _, -, _, -, rfl⟩ := h
  rfl

/-- An odd magnitude is small only as a single octet. -/
theorem three_le_beValue_iff {first : UInt8} {rest : Bytes} (hfirst : first ≠ 0) :
    3 ≤ beValue (first :: rest) ↔ ¬((first :: rest).length = 1 && first < 3) := by
  have hpos : 0 < first.toNat :=
    Nat.pos_of_ne_zero fun h => hfirst (UInt8.toNat_inj.mp h)
  rw [beValue_cons, Bool.and_eq_true, decide_eq_true_eq, decide_eq_true_eq]
  cases rest with
  | nil =>
    simp only [List.length_nil, pow_zero, mul_one, List.length_singleton, true_and,
      UInt8.lt_iff_toNat_lt, not_lt, beValue, List.foldl_nil, Nat.add_zero]
    rfl
  | cons second rest =>
    have hbig : 256 ≤ 256 ^ (second :: rest).length :=
      Nat.le_self_pow (by simp) 256
    have hprod : 256 ^ (second :: rest).length ≤ first.toNat * 256 ^ (second :: rest).length :=
      Nat.le_mul_of_pos_left _ hpos
    simp only [List.length_cons, Nat.add_eq_right, Nat.add_eq_zero_iff, one_ne_zero, and_false,
      false_and, not_false_eq_true, iff_true]
    simp only [List.length_cons] at hbig hprod
    omega

/-- **doc-sign's exponents**: those of lib-core whose value is at least three and below
    2^256. -/
theorem docSign_tryFromPkcs1_iff {bytes out : Bytes} :
    DocSign.RsaPublicExponent.tryFromPkcs1 bytes = .ok out ↔
      RsaPublicExponent.tryFromPkcs1 bytes = .ok out ∧ 3 ≤ beValue bytes ∧
        beValue bytes < 2 ^ DocSign.RsaPublicExponent.maxBits := by
  cases bytes with
  | nil =>
    simp [DocSign.RsaPublicExponent.tryFromPkcs1, RsaPublicExponent.tryFromPkcs1, bind_eq_ok,
      okOr_eq_ok]
  | cons first rest =>
    simp only [DocSign.RsaPublicExponent.tryFromPkcs1, RsaPublicExponent.tryFromPkcs1, bind_eq_ok,
      okOr_eq_ok, ensure_eq_ok, pure_eq_ok, List.head?_cons, Option.some.injEq, bne_iff_ne]
    constructor
    · intro hx
      obtain ⟨_, rfl, -, hfirst, last, hlast, -, hodd, -, hsmall, bits, hbits, -, hle, rfl⟩ := hx
      obtain ⟨bits', hbits', hiff⟩ := @magnitudeBits_le_iff _ rest hfirst
      obtain rfl : bits = bits' := by simpa [hbits] using hbits'
      refine ⟨⟨_, rfl, (), hfirst, last, hlast, (), hodd, rfl⟩, ?_, (hiff _).mp (by simpa using hle)⟩
      rw [Bool.not_eq_true', ← Bool.not_eq_true] at hsmall
      exact (three_le_beValue_iff hfirst).mpr hsmall
    · intro hx
      obtain ⟨⟨_, rfl, -, hfirst, last, hlast, -, hodd, rfl⟩, hthree, hlt⟩ := hx
      obtain ⟨bits, hbits, hiff⟩ := @magnitudeBits_le_iff _ rest hfirst
      refine ⟨_, rfl, (), hfirst, last, hlast, (), hodd, (), ?_, bits, hbits, (), ?_, rfl⟩
      · rw [Bool.not_eq_true', ← Bool.not_eq_true]
        exact (three_le_beValue_iff hfirst).mp hthree
      · simpa using (hiff _).mpr hlt

/-! ## §4. What the verifier accepts -/

theorem octets_length (width n : Nat) : (octets width n).length = width := by
  simp [octets]

/-- The high octets and the low ones. -/
theorem octets_add (a k n : Nat) : octets (a + k) n = octets a (n / 256 ^ k) ++ octets k n := by
  apply List.ext_getElem
  · simp [octets]
  · intro i h₁ h₂
    simp only [octets, List.getElem_map, List.getElem_range, List.getElem_append, List.length_map,
      List.length_range]
    split
    next hi =>
      rw [Nat.div_div_eq_div_mul, ← Nat.pow_add]
      congr 4
      omega
    next hi =>
      congr 4
      omega

theorem octets_zero (a : Nat) : octets a 0 = List.replicate a 0 := by
  simp only [octets, Nat.zero_div, Nat.zero_mod]
  rw [List.map_const', List.length_range]
  rfl

theorem octets_succ (k n : Nat) :
    octets (k + 1) n = octets k (n / 256) ++ [UInt8.ofNat (n % 256)] := by
  rw [octets_add, pow_one]
  simp [octets]

/-- The value of the octets, and the octets of the value. -/
theorem beValue_octets (k n : Nat) : beValue (octets k n) = n % 256 ^ k := by
  induction k generalizing n with
  | zero => simp [octets, beValue, Nat.mod_one]
  | succ k ih =>
    have hlast : (UInt8.ofNat (n % 256)).toNat = n % 256 := by simp
    rw [octets_succ, beValue_append, ih, pow_succ, Nat.mul_comm (256 ^ k), Nat.mod_mul]
    simp only [beValue, List.foldl_cons, List.foldl_nil, hlast, List.length_singleton, pow_one]
    omega

theorem octets_beValue {bytes : Bytes} {k : Nat} (h : bytes.length = k) :
    octets k (beValue bytes) = bytes := by
  induction k generalizing bytes with
  | zero => rw [List.length_eq_zero_iff.mp h]; rfl
  | succ k ih =>
    have hne : bytes ≠ [] := by
      intro hnil
      simp [hnil] at h
    obtain ⟨front, last, rfl⟩ : ∃ front last, bytes = front ++ [last] :=
      ⟨_, _, (List.dropLast_append_getLast hne).symm⟩
    have hfront : front.length = k := by simpa using h
    have hvalue : beValue (front ++ [last]) = beValue front * 256 + last.toNat := by
      rw [beValue_append]
      simp [beValue]
    have hlast : last.toNat < 256 := last.toNat_lt
    have hdiv : (beValue front * 256 + last.toNat) / 256 = beValue front := by omega
    have hmod : (beValue front * 256 + last.toNat) % 256 = last.toNat := by omega
    rw [hvalue, octets_succ, hdiv, hmod, ih hfront, UInt8.ofNat_toNat]

/-- The octets of a number below `256 ^ k`, in a wider box. -/
theorem encodedMessage_octets {a k m : Nat} (hm : m < 256 ^ k) :
    encodedMessage k (octets (a + k) m) = .ok (octets k m) := by
  have hextra : (octets (a + k) m).length - k = a := by
    rw [octets_length]
    omega
  have hsplit : octets (a + k) m = List.replicate a 0 ++ octets k m := by
    rw [octets_add, Nat.div_eq_of_lt hm, octets_zero]
  simp only [encodedMessage, hextra]
  rw [hsplit, List.take_left' (by simp), List.drop_left' (by simp)]
  simp [ensure_bind, pure, Except.pure]

/-- EMSA-PKCS1-v1_5 with `padding` octets FF. -/
def emsa (padding : Nat) (digestInfoBytes digest : Bytes) : Bytes :=
  0x00 :: 0x01 :: (List.replicate padding 0xFF ++ 0x00 :: (digestInfoBytes ++ digest))

/-- The padding ends at the first octet that is not FF. -/
theorem takeWhile_padding (padding : Nat) (rest : Bytes) :
    (List.replicate padding 0xFF ++ 0x00 :: rest : Bytes).takeWhile (fun b => b = 0xFF) =
      List.replicate padding 0xFF := by
  induction padding with
  | zero => simp
  | succ n ih =>
    rw [List.replicate_succ, List.cons_append, List.takeWhile_cons_of_pos (by simp), ih]

theorem checkEncoding_emsa {padding : Nat} (digestInfoBytes digest : Bytes) (h : 8 ≤ padding) :
    checkEncoding digestInfoBytes digest (emsa padding digestInfoBytes digest) = .ok () := by
  have htw : ((emsa padding digestInfoBytes digest).drop 2).takeWhile (fun b => b = 0xFF) =
      List.replicate padding 0xFF := takeWhile_padding _ _
  have hdrop : (emsa padding digestInfoBytes digest).drop (2 + padding + 1) =
      digestInfoBytes ++ digest := by
    rw [show 2 + padding + 1 = padding + 1 + 2 by omega]
    simp [emsa, List.drop_append]
  have hzero : (emsa padding digestInfoBytes digest)[2 + padding]? = some 0x00 := by
    rw [show 2 + padding = padding + 2 by omega]
    simp [emsa]
  have hlen : digestInfoBytes.length + digest.length + 11 ≤
      (emsa padding digestInfoBytes digest).length := by
    simp [emsa]
    omega
  simp only [checkEncoding, htw, List.length_replicate, hdrop, hzero, ensure_bind]
  simp [emsa, h, ensure]
  omega

/-- **The accepted encodings** are the EMSA encodings of the digest. -/
theorem checkEncoding_iff {digestInfoBytes digest em : Bytes} :
    checkEncoding digestInfoBytes digest em = .ok () ↔
      ∃ padding, 8 ≤ padding ∧ em = emsa padding digestInfoBytes digest := by
  constructor
  · intro h
    simp only [checkEncoding, bind_eq_ok, ensure_eq_ok, Bool.and_eq_true, decide_eq_true_eq] at h
    obtain ⟨-, ⟨⟨-, hzero⟩, hone⟩, -, ⟨hps, hsep⟩, -, hlen, -, hinfo, hdigest⟩ := h
    obtain ⟨e₀, e₁, body, rfl⟩ : ∃ e₀ e₁ body, em = e₀ :: e₁ :: body := by
      match em with
      | [] => simp at hzero
      | [_] => simp at hone
      | e₀ :: e₁ :: body => exact ⟨e₀, e₁, body, rfl⟩
    obtain rfl : e₀ = 0x00 := by simpa using hzero
    obtain rfl : e₁ = 0x01 := by simpa using hone
    set padding := body.takeWhile fun b => b = 0xFF with hpad
    have hsplit : padding ++ body.dropWhile (fun b => b = 0xFF) = body :=
      List.takeWhile_append_dropWhile
    have hrep : padding = List.replicate padding.length 0xFF := by
      rw [List.eq_replicate_iff]
      refine ⟨rfl, fun b hb => ?_⟩
      simpa using (List.all_eq_true.mp List.all_takeWhile) b hb
    have hps' : 8 ≤ padding.length := hps
    -- the separator is the first octet after the padding
    have hsep' : (body.dropWhile fun b => b = 0xFF)[0]? = some 0x00 := by
      have hat : (0x00 :: 0x01 :: body : Bytes)[2 + padding.length]? = some 0x00 := hsep
      rw [show 2 + padding.length = padding.length + 1 + 1 by omega, List.getElem?_cons_succ,
        List.getElem?_cons_succ, ← hsplit, List.getElem?_append_right (Nat.le_refl _),
        Nat.sub_self] at hat
      exact hat
    obtain ⟨payload, hpayload⟩ : ∃ payload, body.dropWhile (fun b => b = 0xFF) = 0x00 :: payload := by
      cases hd : body.dropWhile fun b => b = 0xFF with
      | nil => simp [hd] at hsep'
      | cons b payload => exact ⟨payload, by rw [hd] at hsep'; simpa using hsep'⟩
    have hdrop : (0x00 :: 0x01 :: body : Bytes).drop (2 + padding.length + 1) = payload := by
      rw [show 2 + padding.length + 1 = padding.length + 1 + 1 + 1 by omega, List.drop_succ_cons,
        List.drop_succ_cons, ← hsplit, hpayload]
      simp [List.drop_append]
    have hinfo' : payload.take digestInfoBytes.length = digestInfoBytes := hdrop ▸ hinfo
    have hdigest' : payload.drop digestInfoBytes.length = digest := hdrop ▸ hdigest
    refine ⟨padding.length, hps', ?_⟩
    have hparts : payload = digestInfoBytes ++ digest := by
      calc payload = payload.take digestInfoBytes.length ++ payload.drop digestInfoBytes.length :=
            (List.take_append_drop _ _).symm
        _ = digestInfoBytes ++ digest := by rw [hinfo', hdigest']
    rw [emsa, ← hrep, ← hparts, ← hpayload, hsplit]
  · intro hx
    obtain ⟨padding, hp, rfl⟩ := hx
    exact checkEncoding_emsa _ _ hp

/-- **A PKCS#1 v1.5 signature**: its power is the padded digest. -/
structure IsPkcs1Signature (key : RsaPublicKey) (digestInfoBytes digest signature : Bytes) :
    Prop where
  size : signature.length = key.modulus.length
  range : beValue signature < beValue key.modulus
  power : ∃ padding, 8 ≤ padding ∧
    octets key.modulus.length (beValue signature ^ beValue key.exponent % beValue key.modulus) =
      emsa padding digestInfoBytes digest

theorem odd_octet_iff (b : UInt8) : b &&& 1 ≠ 0 ↔ b.toNat % 2 = 1 := by
  have hval : (b &&& 1).toNat = b.toNat % 2 := by
    rw [UInt8.toNat_and]
    exact Nat.and_one_is_mod _
  rw [ne_eq, ← UInt8.toNat_inj, hval]
  have : (0 : UInt8).toNat = 0 := rfl
  omega

/-- What `RsaModulus` promises the verifier. -/
theorem modulus_tryFromPkcs1 {bytes out : Bytes} (h : RsaModulus.tryFromPkcs1 bytes = .ok out) :
    out = bytes ∧ beValue bytes % 2 = 1 ∧ bytes.length * 8 < 2 ^ 32 := by
  cases bytes with
  | nil => simp [RsaModulus.tryFromPkcs1, bind_eq_ok, okOr_eq_ok] at h
  | cons first rest =>
    simp only [RsaModulus.tryFromPkcs1, bind_eq_ok, okOr_eq_ok, ensure_eq_ok, pure_eq_ok,
      List.head?_cons, Option.some.injEq, bne_iff_ne, decide_eq_true_eq] at h
    obtain ⟨_, rfl, -, hfirst, last, hlast, -, hodd, bits, hbits, -, -, -, hmax, rfl⟩ := h
    refine ⟨rfl, ?_, ?_⟩
    · obtain ⟨front, hfront⟩ := List.getLast?_eq_some_iff.mp hlast
      have hlast1 : last.toNat % 2 = 1 := (odd_octet_iff last).mp hodd
      rw [hfront, beValue_append]
      simp only [List.length_singleton, pow_one, beValue, List.foldl_cons, List.foldl_nil]
      omega
    · simp only [magnitudeBits, hfirst, if_false, Option.some.injEq] at hbits
      simp only [RsaModulus.maxBits] at hmax
      omega

/-- **The verifier** under a modulus that `RsaModulus` let in. -/
theorem verifyPkcs1v15_iff {key : RsaPublicKey} {modulusBytes : Bytes}
    (hmod : RsaModulus.tryFromPkcs1 modulusBytes = .ok key.modulus)
    {digestInfoBytes digest signature : Bytes} :
    verifyPkcs1v15 key digestInfoBytes digest signature = .ok () ↔
      IsPkcs1Signature key digestInfoBytes digest signature := by
  obtain ⟨hbytes, hodd, hsmall⟩ := modulus_tryFromPkcs1 hmod
  rw [← hbytes] at hodd hsmall
  set k := key.modulus.length with hk
  have hprec : k * 8 ≤ limbPrecision (k * 8) := by
    unfold limbPrecision
    omega
  have hmodulus : fromBeSlice key.modulus (limbPrecision (k * 8)) = some (beValue key.modulus) :=
    if_pos hprec
  obtain ⟨a, ha⟩ : ∃ a, limbPrecision (k * 8) / 8 = a + k := ⟨limbPrecision (k * 8) / 8 - k, by omega⟩
  have hpos : 0 < beValue key.modulus := by omega
  have hbox (m : Nat) : encodedMessage k (octets (a + k) (m % beValue key.modulus)) =
      .ok (octets k (m % beValue key.modulus)) :=
    encodedMessage_octets ((Nat.mod_lt _ hpos).trans (beValue_lt _))
  simp only [verifyPkcs1v15, ← hk, bind_eq_ok, ensure_eq_ok, okOr_eq_ok, decide_eq_true_eq, ha,
    hmodulus, Option.some.injEq]
  constructor
  · intro h
    obtain ⟨-, hsize, -, -, _, rfl, s, hs, -, hrange, -, -, em, hem, hcheck⟩ := h
    obtain rfl : beValue signature = s := by
      rw [fromBeSlice, hsize, if_pos hprec] at hs
      exact Option.some.inj hs
    rw [hbox] at hem
    obtain rfl := Except.ok.inj hem
    exact ⟨hsize, hrange, checkEncoding_iff.mp hcheck⟩
  · intro h
    have hs : fromBeSlice signature (limbPrecision (k * 8)) = some (beValue signature) := by
      rw [fromBeSlice, h.size, if_pos hprec]
    exact ⟨(), h.size, (), hsmall, _, rfl, _, hs, (), h.range, (), hodd, _, hbox _,
      checkEncoding_iff.mpr h.power⟩

/-! ## §5. The one accepted message -/

/-- `00 01`, octets FF, `00`, `t`: the encoded message of `k` octets. -/
def emsaPkcs1 (k : Nat) (t : Bytes) : Bytes :=
  0x00 :: 0x01 :: (List.replicate (k - 3 - t.length) 0xFF ++ 0x00 :: t)

/-- The length of the message leaves one choice for the padding. -/
theorem emsa_exact {k : Nat} {em digestInfoBytes digest : Bytes} (hlen : em.length = k) :
    (∃ padding, 8 ≤ padding ∧ em = emsa padding digestInfoBytes digest) ↔
      8 ≤ k - 3 - (digestInfoBytes ++ digest).length ∧
        em = emsaPkcs1 k (digestInfoBytes ++ digest) := by
  constructor
  · intro h
    obtain ⟨padding, hpadding, rfl⟩ := h
    have hk : k = padding + 3 + (digestInfoBytes ++ digest).length := by
      rw [← hlen]
      simp [emsa]
      omega
    have hrest : k - 3 - (digestInfoBytes ++ digest).length = padding := by omega
    rw [emsaPkcs1, hrest]
    exact ⟨hpadding, rfl⟩
  · intro h
    obtain ⟨hpadding, rfl⟩ := h
    exact ⟨_, hpadding, rfl⟩

/-- **Exactness of PKCS#1 v1.5**: under a modulus that `RsaModulus` let in, of whatever size,
    the verifier accepts the octets of a number below the modulus whose power, in as many
    octets as the modulus has, is the one padded message of the digest. -/
theorem verifyPkcs1v15_exact {key : RsaPublicKey} {modulusBytes : Bytes}
    (hmod : RsaModulus.tryFromPkcs1 modulusBytes = .ok key.modulus) (hash : HashAlg)
    (digest signature : Bytes) :
    verifyPkcs1v15 key (digestInfo hash) digest signature = .ok () ↔
      signature.length = key.modulus.length ∧ beValue signature < beValue key.modulus ∧
        8 ≤ key.modulus.length - 3 - (digestInfo hash ++ digest).length ∧
        octets key.modulus.length
            (beValue signature ^ beValue key.exponent % beValue key.modulus) =
          emsaPkcs1 key.modulus.length (digestInfo hash ++ digest) := by
  rw [verifyPkcs1v15_iff hmod]
  constructor
  · intro h
    exact ⟨h.size, h.range, (emsa_exact (octets_length _ _)).mp h.power⟩
  · intro h
    obtain ⟨hsize, hrange, hpower⟩ := h
    exact ⟨hsize, hrange, (emsa_exact (octets_length _ _)).mpr hpower⟩

/-- A key of 512 bits and the exponent 3. -/
def cubeKey : RsaPublicKey where
  modulus := octets 64 0xb502f333f9de6ef74d04ec9a156dc9a0d5592df37a17fe9afcfbfe02acbcefc1a667b00000000000000010f876ccdf6cd9bfffffffffffffffffffffffffffff
  exponent := [3]

/-- A cube root of the padded digest is accepted. -/
theorem cubeKey_accepts :
    verifyPkcs1v15 cubeKey (digestInfo .sha256) (octets 32 2)
      (octets 64 0x5a827999fcef3400000000000000000000000000001) = .ok () := by
  have hmod : RsaModulus.tryFromPkcs1 cubeKey.modulus = .ok cubeKey.modulus := by decide
  refine (verifyPkcs1v15_exact hmod .sha256 (octets 32 2)
    (octets 64 0x5a827999fcef3400000000000000000000000000001)).mpr ?_
  decide

end RefineId
